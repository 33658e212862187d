import BankingAgent.Dict
import Mathlib.Data.Finset.Insert
import Mathlib.Data.Rat.Defs
import Mathlib.Algebra.Order.Ring.Rat

/-!
# `banking/models.py`, `banking/repository.py` and `banking/tools.py`

The synthetic bank behind the MCP server, as a state and what each of the nine tools
does to it. Amounts are exact rationals and instants are microseconds; the clock and
`uuid4` are read by the caller and handed in.

* `BankingRepository` — accounts, beneficiaries, transactions, drafts, and the keys of
  the transfers that were completed.
* `BankingTool` — a tool with its arguments, without `user_id`.
* `Invocation.exec` — `BankingTools.execute` for the user of the invocation.
-/

namespace BankingAgent

/-! ## Models -/

/-- `TransferStatus`. -/
inductive TransferStatus : Type where
  | draft | pending | completed | cancelled | failed
  deriving DecidableEq

/-- The `value` of a status. -/
def TransferStatus.value : TransferStatus → String
  | .draft => "DRAFT"
  | .pending => "PENDING"
  | .completed => "COMPLETED"
  | .cancelled => "CANCELLED"
  | .failed => "FAILED"

/-- `Account`. -/
structure Account : Type where
  accountId : String
  ownerId : String
  accountType : String := "checking"
  balance : ℚ := 0
  currency : String := "USD"
  active : Bool := true

/-- `Beneficiary`, without the fields no tool reads. -/
structure Beneficiary : Type where
  beneficiaryId : String
  name : String
  active : Bool := true

/-- `Transaction`. -/
structure Transaction : Type where
  transactionId : String
  accountId : String
  amount : ℚ
  currency : String := "USD"
  description : String := ""
  timestamp : String := ""

/-- `TransferDraft`. Its instants are kept as instants. -/
structure TransferDraft : Type where
  draftId : String
  sourceAccountId : String
  beneficiaryId : String
  amount : ℚ
  currency : String
  description : String
  status : TransferStatus
  idempotencyKey : String
  createdAt : ℤ
  expiresAt : ℤ

/-- `DEFAULT_TRANSACTION_LIMIT`. -/
def defaultTransactionLimit : ℚ := 100000

/-- `TRANSFER_DRAFT_EXPIRY_MINUTES`, in microseconds. -/
def transferDraftExpiry : ℤ := 30 * 60 * 1000000

/-- The currencies `create_transfer_draft` accepts. -/
def supportedCurrencies : List String := ["USD", "EUR", "GBP", "JPY", "CHF"]

/-- How numbers and instants look as text: `str(float)` and `datetime.isoformat`. -/
structure TextFormat : Type where
  float : ℚ → String
  isoformat : ℤ → String

/-! ## The repository -/

/-- `BankingRepository`. -/
structure BankingRepository : Type where
  accounts : AList fun _ : String => Account
  beneficiaries : AList fun _ : String => Beneficiary
  transactions : AList fun _ : String => List Transaction
  transferDrafts : AList fun _ : String => TransferDraft
  /-- `_completed_transfers`: idempotency keys -/
  completedTransfers : Finset String

namespace BankingRepository

/-- A repository as `__init__` leaves it. -/
def new : BankingRepository := ⟨∅, ∅, ∅, ∅, ∅⟩

/-- `load_fixtures`, one account. -/
def loadAccount (repo : BankingRepository) (a : Account) : BankingRepository :=
  { repo with
    accounts := repo.accounts.insert a.accountId a
    transactions :=
      match repo.transactions.lookup a.accountId with
      | some _ => repo.transactions
      | none => repo.transactions.insert a.accountId [] }

/-- `load_fixtures`, one beneficiary. -/
def loadBeneficiary (repo : BankingRepository) (b : Beneficiary) : BankingRepository :=
  { repo with beneficiaries := repo.beneficiaries.insert b.beneficiaryId b }

/-- `load_fixtures`. -/
def loadFixtures (accounts : List Account) (beneficiaries : List Beneficiary)
    (repo : BankingRepository) : BankingRepository :=
  beneficiaries.foldl loadBeneficiary (accounts.foldl loadAccount repo)

/-- `transactions.get(account_id, [])`. -/
def transactionsOf (repo : BankingRepository) (accountId : String) : List Transaction :=
  (repo.transactions.lookup accountId).getD []

/-- `owner_of`. -/
def ownerOf (repo : BankingRepository) (accountId userId : String) : Bool :=
  match repo.accounts.lookup accountId with
  | some acc => acc.ownerId = userId
  | none => false

/-- The account, if the user owns it: the guard of `get_balance` and `get_summary`. -/
def ownAccount (repo : BankingRepository) (accountId userId : String) : Option Account :=
  (repo.accounts.lookup accountId).filter fun acc => acc.ownerId = userId

/-- `txs[-limit:]`. -/
def lastTransactions (txs : List Transaction) (limit : ℤ) : List Transaction :=
  if 0 < limit then txs.drop (txs.length - limit.toNat) else txs.drop (-limit).toNat

/-- `list_transactions`. -/
def listTransactions (repo : BankingRepository) (accountId userId : String) (limit : ℤ) :
    Option (List Transaction) :=
  if repo.ownerOf accountId userId then
    some (lastTransactions (repo.transactionsOf accountId) limit)
  else none

variable (fmt : TextFormat)

/-- The checks of `create_transfer_draft` up to the balance: the error of the first that
fails. -/
def draftError (repo : BankingRepository) (sourceAccountId beneficiaryId : String) (amount : ℚ)
    (currency userId : String) : Option String :=
  match repo.accounts.lookup sourceAccountId with
  | none => some s!"Account not found: {sourceAccountId}"
  | some acc =>
    if !acc.active then some s!"Account inactive: {sourceAccountId}"
    else if acc.ownerId ≠ userId then
      some s!"User {userId} does not own account {sourceAccountId}"
    else match repo.beneficiaries.lookup beneficiaryId with
      | none => some s!"Beneficiary not found: {beneficiaryId}"
      | some ben =>
        if !ben.active then some s!"Beneficiary inactive: {beneficiaryId}"
        else if amount ≤ 0 then some "Amount must be positive"
        else if defaultTransactionLimit < amount then
          some s!"Amount exceeds limit of {fmt.float defaultTransactionLimit}"
        else if currency ∉ supportedCurrencies then some s!"Unsupported currency: {currency}"
        else if acc.balance < amount then
          some s!"Insufficient funds: balance {fmt.float acc.balance} < {fmt.float amount}"
        else none

/-- Write a draft to the table of drafts. -/
def putDraft (repo : BankingRepository) (draft : TransferDraft) : BankingRepository :=
  { repo with transferDrafts := repo.transferDrafts.insert draft.draftId draft }

/-- `create_transfer_draft`. -/
def createTransferDraft (repo : BankingRepository) (sourceAccountId beneficiaryId : String)
    (amount : ℚ) (currency userId idempotencyKey description : String) (now : ℤ) (uuid : String) :
    Except String TransferDraft × BankingRepository :=
  match repo.draftError fmt sourceAccountId beneficiaryId amount currency userId with
  | some error => (.error error, repo)
  | none =>
    if idempotencyKey ∈ repo.completedTransfers then
      (.error "Transfer already completed (idempotency key)", repo)
    else
      let draft : TransferDraft :=
        { draftId := uuid, sourceAccountId, beneficiaryId, amount, currency, description,
          status := .draft, idempotencyKey, createdAt := now,
          expiresAt := now + transferDraftExpiry }
      (.ok draft, repo.putDraft draft)

/-- The part of `submit_transfer` that moves the money. -/
def execute (repo : BankingRepository) (draft : TransferDraft) (acc : Account) (now : ℤ)
    (uuid : String) : BankingRepository :=
  let txn : Transaction :=
    { transactionId := uuid, accountId := draft.sourceAccountId, amount := -draft.amount,
      currency := draft.currency,
      description :=
        if draft.description = "" then s!"Transfer to {draft.beneficiaryId}"
        else draft.description,
      timestamp := fmt.isoformat now }
  { repo with
    accounts := repo.accounts.insert draft.sourceAccountId
      { acc with balance := acc.balance - draft.amount }
    transferDrafts := repo.transferDrafts.insert draft.draftId { draft with status := .completed }
    transactions := repo.transactions.insert draft.sourceAccountId
      (repo.transactionsOf draft.sourceAccountId ++ [txn])
    completedTransfers :=
      if draft.idempotencyKey = "" then repo.completedTransfers
      else insert draft.idempotencyKey repo.completedTransfers }

/-- `submit_transfer`. It reads the clock twice: for the expiry, and for the
transaction. -/
def submitTransfer (repo : BankingRepository) (draftId userId : String) (now later : ℤ)
    (uuid : String) : Except String TransferDraft × BankingRepository :=
  match repo.transferDrafts.lookup draftId with
  | none => (.error s!"Draft not found: {draftId}", repo)
  | some draft =>
    if draft.status ≠ .draft then (.error s!"Draft already {draft.status.value}", repo)
    else match repo.ownAccount draft.sourceAccountId userId with
      | none => (.error "Ownership violation", repo)
      | some acc =>
        if draft.expiresAt < now then
          (.error "Draft expired", repo.putDraft { draft with status := .failed })
        else if draft.idempotencyKey ≠ "" ∧ draft.idempotencyKey ∈ repo.completedTransfers then
          (.error "Transfer already completed", repo)
        else if acc.balance < draft.amount then (.error "Insufficient funds", repo)
        else (.ok { draft with status := .completed }, repo.execute fmt draft acc later uuid)

/-- `cancel_transfer`. -/
def cancelTransfer (repo : BankingRepository) (draftId userId : String) :
    Except String Bool × BankingRepository :=
  match repo.transferDrafts.lookup draftId with
  | none => (.error s!"Draft not found: {draftId}", repo)
  | some draft =>
    if draft.status ≠ .draft ∧ draft.status ≠ .pending then
      (.error s!"Cannot cancel: draft is {draft.status.value}", repo)
    else if !repo.ownerOf draft.sourceAccountId userId then (.error "Ownership violation", repo)
    else (.ok true, repo.putDraft { draft with status := .cancelled })

end BankingRepository

/-! ## The tools -/

/-- A tool with its arguments. The `user_id` of a call is the user of the invocation. -/
inductive BankingTool : Type where
  | getAccountSummary (accountId : String)
  | getBalance (accountId : String)
  /-- `limit` may be left out -/
  | listTransactions (accountId : String) (limit : Option ℤ)
  | findBeneficiary (beneficiaryId : String)
  /-- `description` is `""` when it is left out -/
  | createTransferDraft (sourceAccountId beneficiaryId : String) (amount : ℚ)
      (currency idempotencyKey description : String)
  | submitTransfer (draftId : String)
  | cancelTransfer (draftId : String)
  | getTransferStatus (draftId : String)
  | reportSuspiciousTransaction (accountId transactionId reason : String)
  deriving DecidableEq

/-- The dictionary a tool returns as JSON. -/
inductive BankingReply : Type where
  | accountSummary (accountId ownerId : String) (balance : ℚ) (currency type : String)
      (active : Bool) (recentTransactionCount beneficiaryCount : ℕ)
  | balance (accountId : String) (balance : ℚ) (currency : String)
  /-- id, amount, currency, description and timestamp of each transaction -/
  | transactions (txs : List (String × ℚ × String × String × String))
  | beneficiary (id name : String) (active : Bool)
  | draft (draftId : String) (status : TransferStatus) (amount : ℚ) (expiresAt : String)
  | submitted (draftId : String) (status : TransferStatus)
  | cancelled (success : Bool)
  | transferStatus (draftId : String) (status : TransferStatus) (amount : ℚ)
  | reported (reference : String)
  deriving DecidableEq

/-- What a tool returns: a dictionary, or the error. -/
abbrev ToolOutcome : Type := Except String BankingReply

/-- A call of a tool: who makes it, what the clock shows, and what `uuid4` returns if it is
asked for a new id. -/
structure Invocation : Type where
  user : String
  tool : BankingTool
  now : ℤ
  /-- a second reading of the clock -/
  later : ℤ
  uuid : String

namespace Invocation

variable (fmt : TextFormat)

/-- `execute`: what the tool returns, and the repository afterwards. -/
def exec (i : Invocation) (repo : BankingRepository) : ToolOutcome × BankingRepository :=
  match i.tool with
  | .getAccountSummary accountId =>
    match repo.ownAccount accountId i.user with
    | none => (.error "Account not found or access denied", repo)
    | some acc =>
      (.ok (.accountSummary acc.accountId acc.ownerId acc.balance acc.currency acc.accountType
        acc.active (BankingRepository.lastTransactions (repo.transactionsOf accountId) 10).length
        repo.beneficiaries.keys.length), repo)
  | .getBalance accountId =>
    match repo.ownAccount accountId i.user with
    | none => (.error "Account not found or access denied", repo)
    | some acc => (.ok (.balance accountId acc.balance "USD"), repo)
  | .listTransactions accountId limit =>
    match repo.listTransactions accountId i.user (limit.getD 20) with
    | none => (.error "Account not found or access denied", repo)
    | some txs =>
      (.ok (.transactions (txs.map fun t =>
        (t.transactionId, t.amount, t.currency, t.description, t.timestamp))), repo)
  | .findBeneficiary beneficiaryId =>
    match repo.beneficiaries.lookup beneficiaryId with
    | none => (.error "Beneficiary not found", repo)
    | some ben => (.ok (.beneficiary ben.beneficiaryId ben.name ben.active), repo)
  | .createTransferDraft source beneficiary amount currency key description =>
    let r := repo.createTransferDraft fmt source beneficiary amount currency i.user key description
      i.now i.uuid
    (r.1.map fun d => .draft d.draftId d.status d.amount (fmt.isoformat d.expiresAt), r.2)
  | .submitTransfer draftId =>
    let r := repo.submitTransfer fmt draftId i.user i.now i.later i.uuid
    (r.1.map fun d => .submitted d.draftId d.status, r.2)
  | .cancelTransfer draftId =>
    let r := repo.cancelTransfer draftId i.user
    (r.1.map .cancelled, r.2)
  | .getTransferStatus draftId =>
    match repo.transferDrafts.lookup draftId with
    | none => (.error "Transfer draft not found", repo)
    | some d => (.ok (.transferStatus d.draftId d.status d.amount), repo)
  | .reportSuspiciousTransaction _ transactionId _ =>
    (.ok (.reported s!"SAR-{String.ofList (transactionId.toList.take 8)}"), repo)

end Invocation

/-- The repository after a sequence of invocations. -/
def BankingRepository.after (fmt : TextFormat) (repo : BankingRepository)
    (ops : List Invocation) : BankingRepository :=
  ops.foldl (fun r i => (i.exec fmt r).2) repo

/-- A draft the invocation creates gets an id that no draft has. -/
def Invocation.Fresh (i : Invocation) (repo : BankingRepository) : Prop :=
  match i.tool with
  | .createTransferDraft _ _ _ _ _ _ => i.uuid ∉ repo.transferDrafts.keys
  | _ => True

/-- `uuid4` never returns the id of a draft that exists. -/
def FreshIds (fmt : TextFormat) : BankingRepository → List Invocation → Prop
  | _, [] => True
  | repo, i :: ops => i.Fresh repo ∧ FreshIds fmt (i.exec fmt repo).2 ops

end BankingAgent
