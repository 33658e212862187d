import BankingAgent.Banking.Repository
import BankingAgent.Numbers.FloatFormat

/-!
# Drafts over every number

What the tools do with the numbers Python has: an `amount` is an integer or a float, and JSON
lets `NaN` and the infinities through. The guards of `create_transfer_draft` are written as what
must not be the case, and of `NaN` nothing is the case.

The state is what drafts and transfers read and write; transactions are left out here.

* `draft_guard_iff` — in a run from loaded fixtures, every draft is sound and its account stays
  finite and covered, exactly if no `NaN` meets an account, a beneficiary, a currency and a key
  that are in order.
-/

namespace BankingAgent

open FloatFormat (binary64)

/-! ## The model -/

/-- `float`. -/
abbrev PyFloat : Type := Number binary64

/-- A number that `_check_type` accepts: an `int` that is no `bool`, or a `float`. -/
inductive PyNumber : Type where
  | int (n : ℤ)
  | float (x : PyFloat)

/-- `float(x)`; an integer that is too large raises. -/
def PyNumber.toFloat : PyNumber → Option PyFloat
  | int n =>
    match Number.round binary64 n with
    | .inf _ => none
    | x => some x
  | float x => some x

@[simp] theorem PyNumber.toFloat_float (x : PyFloat) : (PyNumber.float x).toFloat = some x := rfl

theorem zero_representable : binary64.Representable 0 := by
  have := FloatFormat.representable_intCast (F := binary64) (n := 0) (by decide) (by decide) (by decide)
  simpa using this

theorem limit_representable : binary64.Representable 100000 := by
  have := FloatFormat.representable_intCast (F := binary64) (n := 100000) (by decide) (by decide)
    (by decide)
  simpa using this

/-- `0`, as amounts are compared with it. -/
def floatZero : PyFloat := .finite 0 zero_representable

/-- `DEFAULT_TRANSACTION_LIMIT`. -/
def floatTransactionLimit : PyFloat := .finite 100000 limit_representable

/-- `Account`. -/
structure FloatAccount : Type where
  accountId : String
  ownerId : String
  balance : PyFloat
  active : Bool

/-- `TransferDraft`. -/
structure FloatDraft : Type where
  draftId : String
  sourceAccountId : String
  beneficiaryId : String
  amount : PyFloat
  currency : String
  description : String
  status : TransferStatus
  idempotencyKey : String
  createdAt : ℤ
  expiresAt : ℤ

/-- `BankingRepository`, without the transactions. -/
structure FloatRepository : Type where
  accounts : AList fun _ : String => FloatAccount
  beneficiaries : AList fun _ : String => Beneficiary
  transferDrafts : AList fun _ : String => FloatDraft
  completedTransfers : Finset String

/-- The arguments of `create_transfer_draft`, with the clock and the id that is drawn. -/
structure DraftArgs : Type where
  sourceAccountId : String
  beneficiaryId : String
  amount : PyNumber
  currency : String
  userId : String
  idempotencyKey : String
  description : String
  now : ℤ
  uuid : String

/-- A call of a tool that writes. -/
inductive FloatOp : Type where
  | createTransferDraft (args : DraftArgs)
  | submitTransfer (draftId userId : String) (now : ℤ)
  | cancelTransfer (draftId userId : String)

/-- What the tool makes of it. -/
inductive FloatReply : Type where
  | drafted (draft : FloatDraft)
  | submitted (draft : FloatDraft)
  | cancelled
  | error (message : String)

/-- The `TransferDraft(...)` that these arguments and this amount make. -/
def DraftArgs.draft (args : DraftArgs) (amount : PyFloat) : FloatDraft where
  draftId := args.uuid
  sourceAccountId := args.sourceAccountId
  beneficiaryId := args.beneficiaryId
  amount := amount
  currency := args.currency
  description := args.description
  status := .draft
  idempotencyKey := args.idempotencyKey
  createdAt := args.now
  expiresAt := args.now + transferDraftExpiry

namespace FloatRepository

variable (fmt : PyFloat → String) (repo : FloatRepository)

/-- Write a draft. -/
def putDraft (draftId : String) (draft : FloatDraft) : FloatRepository :=
  { repo with transferDrafts := repo.transferDrafts.insert draftId draft }

/-- The checks of `create_transfer_draft` up to the balance: the error of the first that
fails. -/
def draftError (args : DraftArgs) (amount : PyFloat) : Option String :=
  match repo.accounts.lookup args.sourceAccountId with
  | none => some s!"Account not found: {args.sourceAccountId}"
  | some acc =>
    if !acc.active then some s!"Account inactive: {args.sourceAccountId}"
    else if acc.ownerId ≠ args.userId then
      some s!"User {args.userId} does not own account {args.sourceAccountId}"
    else match repo.beneficiaries.lookup args.beneficiaryId with
      | none => some s!"Beneficiary not found: {args.beneficiaryId}"
      | some ben =>
        if !ben.active then some s!"Beneficiary inactive: {args.beneficiaryId}"
        else if amount.le floatZero then some "Amount must be positive"
        else if floatTransactionLimit.lt amount then
          some s!"Amount exceeds limit of {fmt floatTransactionLimit}"
        else if args.currency ∉ supportedCurrencies then
          some s!"Unsupported currency: {args.currency}"
        else if acc.balance.lt amount then
          some s!"Insufficient funds: balance {fmt acc.balance} < {fmt amount}"
        else none

/-- `_tool_create_transfer_draft` and `create_transfer_draft`. -/
def createTransferDraft (args : DraftArgs) : FloatReply × FloatRepository :=
  match args.amount.toFloat with
  | none => (.error "int too large to convert to float", repo)
  | some amount =>
    match repo.draftError fmt args amount with
    | some error => (.error error, repo)
    | none =>
      if args.idempotencyKey ∈ repo.completedTransfers then
        (.error "Transfer already completed (idempotency key)", repo)
      else (.drafted (args.draft amount), repo.putDraft args.uuid (args.draft amount))

/-- The part of `submit_transfer` that moves the money. -/
def execute (draftId : String) (draft : FloatDraft) (acc : FloatAccount) : FloatRepository :=
  { repo with
    accounts := repo.accounts.insert draft.sourceAccountId
      { acc with balance := acc.balance.sub draft.amount }
    transferDrafts := repo.transferDrafts.insert draftId { draft with status := .completed }
    completedTransfers :=
      if draft.idempotencyKey = "" then repo.completedTransfers
      else insert draft.idempotencyKey repo.completedTransfers }

/-- The account, if the user owns it. -/
def ownAccount (accountId userId : String) : Option FloatAccount :=
  (repo.accounts.lookup accountId).filter fun acc => acc.ownerId = userId

/-- `submit_transfer`. -/
def submitTransfer (draftId userId : String) (now : ℤ) : FloatReply × FloatRepository :=
  match repo.transferDrafts.lookup draftId with
  | none => (.error s!"Draft not found: {draftId}", repo)
  | some draft =>
    if draft.status ≠ .draft then (.error s!"Draft already {draft.status.value}", repo)
    else match repo.ownAccount draft.sourceAccountId userId with
      | none => (.error "Ownership violation", repo)
      | some acc =>
        if draft.expiresAt < now then
          (.error "Draft expired", repo.putDraft draftId { draft with status := .failed })
        else if draft.idempotencyKey ≠ "" ∧ draft.idempotencyKey ∈ repo.completedTransfers then
          (.error "Transfer already completed", repo)
        else if acc.balance.lt draft.amount then (.error "Insufficient funds", repo)
        else (.submitted { draft with status := .completed }, repo.execute draftId draft acc)

/-- `cancel_transfer`. -/
def cancelTransfer (draftId userId : String) : FloatReply × FloatRepository :=
  match repo.transferDrafts.lookup draftId with
  | none => (.error s!"Draft not found: {draftId}", repo)
  | some draft =>
    if draft.status ≠ .draft ∧ draft.status ≠ .pending then
      (.error s!"Cannot cancel: draft is {draft.status.value}", repo)
    else if (repo.ownAccount draft.sourceAccountId userId).isNone then
      (.error "Ownership violation", repo)
    else (.cancelled, repo.putDraft draftId { draft with status := .cancelled })

/-- One call. -/
def exec : FloatOp → FloatReply × FloatRepository
  | .createTransferDraft args => repo.createTransferDraft fmt args
  | .submitTransfer draftId userId now => repo.submitTransfer draftId userId now
  | .cancelTransfer draftId userId => repo.cancelTransfer draftId userId

/-- The repository after a sequence of calls. -/
def after (ops : List FloatOp) : FloatRepository := ops.foldl (fun r op => (r.exec fmt op).2) repo

end FloatRepository

/-! ## What the guards are for -/

/-- A draft that may be admitted: its amount is positive, within the limit and covered. -/
structure DraftSound (repo : FloatRepository) (draft : FloatDraft) : Prop where
  positive : floatZero.lt draft.amount = true
  limited : draft.amount.le floatTransactionLimit = true
  covered : ∃ acc, repo.accounts.lookup draft.sourceAccountId = some acc ∧
    draft.amount.le acc.balance = true

/-- Every draft that is admitted is sound, and the balance of its account is finite and not
negative ever after. -/
structure GuardHolds (fmt : PyFloat → String) (repo : FloatRepository) (ops : List FloatOp) :
    Prop where
  admits : ∀ before op rest draft, ops = before ++ op :: rest →
    ((repo.after fmt before).exec fmt op).1 = .drafted draft →
      DraftSound (repo.after fmt before) draft
  stays : ∀ before op later rest draft, ops = before ++ (op :: later) ++ rest →
    ((repo.after fmt before).exec fmt op).1 = .drafted draft →
      ∃ acc, (repo.after fmt (before ++ op :: later)).accounts.lookup draft.sourceAccountId =
        some acc ∧ acc.balance.FiniteNonNeg

/-- Everything about a draft but its amount is in order. -/
def OtherwiseInOrder (repo : FloatRepository) (args : DraftArgs) : Prop :=
  (∃ acc, repo.accounts.lookup args.sourceAccountId = some acc ∧ acc.active = true ∧
      acc.ownerId = args.userId) ∧
    (∃ ben, repo.beneficiaries.lookup args.beneficiaryId = some ben ∧ ben.active = true) ∧
    args.currency ∈ supportedCurrencies ∧ args.idempotencyKey ∉ repo.completedTransfers

/-- No draft of an amount that is `NaN` is in order otherwise. -/
def NeverNaN (fmt : PyFloat → String) (repo : FloatRepository) (ops : List FloatOp) : Prop :=
  ∀ before args rest, ops = before ++ .createTransferDraft args :: rest →
    args.amount = .float .nan → ¬ OtherwiseInOrder (repo.after fmt before) args

/-- Fixtures were loaded: the balances are finite, and there are no drafts yet. -/
structure Loaded (repo : FloatRepository) : Prop where
  balances : ∀ id acc, repo.accounts.lookup id = some acc → ∃ q h, acc.balance = .finite q h
  drafts : repo.transferDrafts = ∅

/-! ## What a call can do -/

namespace FloatRepository

variable {fmt : PyFloat → String} {repo repo' : FloatRepository} {args : DraftArgs}
  {op : FloatOp} {reply : FloatReply} {draft : FloatDraft}

/-- The draft is in order but for its amount, on this account. -/
structure InOrderOn (repo : FloatRepository) (args : DraftArgs) (acc : FloatAccount) : Prop where
  account : repo.accounts.lookup args.sourceAccountId = some acc
  active : acc.active = true
  owner : acc.ownerId = args.userId
  beneficiary : ∃ ben, repo.beneficiaries.lookup args.beneficiaryId = some ben ∧ ben.active = true
  currency : args.currency ∈ supportedCurrencies

/-- The checks pass, if everything is in order and no guard fires. -/
theorem draftError_eq_none {amount : PyFloat} : repo.draftError fmt args amount = none ↔
    ∃ acc, repo.InOrderOn args acc ∧ amount.le floatZero = false ∧
      floatTransactionLimit.lt amount = false ∧ acc.balance.lt amount = false := by
  constructor
  · intro h
    rw [draftError] at h
    cases hacc : repo.accounts.lookup args.sourceAccountId with
    | none => simp [hacc] at h
    | some acc =>
      cases hben : repo.beneficiaries.lookup args.beneficiaryId with
      | none =>
        simp only [hacc, hben] at h
        split_ifs at h
      | some ben =>
        simp only [hacc, hben] at h
        split_ifs at h with hactive howner hbenActive hzero hlimit hcurrency hfunds
        exact ⟨acc, ⟨hacc, by simpa using hactive, by simpa using howner,
          ⟨ben, hben, by simpa using hbenActive⟩, by simpa using hcurrency⟩,
          by simpa using hzero, by simpa using hlimit, by simpa using hfunds⟩
  · rintro ⟨acc, ⟨hacc, hactive, howner, ⟨ben, hben, hbenActive⟩, hcurrency⟩, hzero, hlimit,
      hfunds⟩
    simp [draftError, hacc, hactive, howner, hben, hbenActive, hcurrency, hzero, hlimit, hfunds]

/-- What a call does, with what it has checked. -/
inductive Effect (fmt : PyFloat → String) (repo : FloatRepository) :
    FloatOp → FloatReply → FloatRepository → Prop where
  | failed (op : FloatOp) (message : String) : Effect fmt repo op (.error message) repo
  | drafted (args : DraftArgs) (amount : PyFloat) (hamount : args.amount.toFloat = some amount)
      (hcheck : repo.draftError fmt args amount = none)
      (hkey : args.idempotencyKey ∉ repo.completedTransfers) :
      Effect fmt repo (.createTransferDraft args) (.drafted (args.draft amount))
        (repo.putDraft args.uuid (args.draft amount))
  | restated (op : FloatOp) (reply : FloatReply) (hreply : ∀ draft, reply ≠ .drafted draft)
      (draftId : String) (draft : FloatDraft)
      (hdraft : repo.transferDrafts.lookup draftId = some draft)
      (status : TransferStatus) :
      Effect fmt repo op reply (repo.putDraft draftId { draft with status })
  | executed (draftId userId : String) (now : ℤ) (draft : FloatDraft) (acc : FloatAccount)
      (hdraft : repo.transferDrafts.lookup draftId = some draft)
      (hacc : repo.accounts.lookup draft.sourceAccountId = some acc)
      (hfunds : acc.balance.lt draft.amount = false) :
      Effect fmt repo (.submitTransfer draftId userId now)
        (.submitted { draft with status := .completed }) (repo.execute draftId draft acc)

theorem effect_createTransferDraft (args : DraftArgs) :
    Effect fmt repo (.createTransferDraft args) (repo.createTransferDraft fmt args).1
      (repo.createTransferDraft fmt args).2 := by
  rw [createTransferDraft]
  split
  · exact .failed _ _
  · rename_i amount hamount
    split
    · exact .failed _ _
    · rename_i hcheck
      split_ifs with hkey
      · exact .failed _ _
      · exact .drafted args amount hamount hcheck hkey

theorem lookup_of_ownAccount {accountId userId : String} {acc : FloatAccount}
    (h : repo.ownAccount accountId userId = some acc) : repo.accounts.lookup accountId = some acc :=
  (Option.filter_eq_some_iff.mp h).1

theorem effect_submitTransfer (draftId userId : String) (now : ℤ) :
    Effect fmt repo (.submitTransfer draftId userId now) (repo.submitTransfer draftId userId now).1
      (repo.submitTransfer draftId userId now).2 := by
  rw [submitTransfer]
  split
  · exact .failed _ _
  · rename_i draft hdraft
    cases hacc : repo.ownAccount draft.sourceAccountId userId with
    | none =>
      dsimp only
      split_ifs <;> exact .failed _ _
    | some acc =>
      dsimp only
      split_ifs with hstatus hexpired hkey hfunds
      · exact .failed _ _
      · exact .restated _ _ (by simp) draftId draft hdraft .failed
      · exact .failed _ _
      · exact .failed _ _
      · exact .executed draftId userId now draft acc hdraft (lookup_of_ownAccount hacc)
          (by simpa using hfunds)

theorem effect_cancelTransfer (draftId userId : String) :
    Effect fmt repo (.cancelTransfer draftId userId) (repo.cancelTransfer draftId userId).1
      (repo.cancelTransfer draftId userId).2 := by
  rw [cancelTransfer]
  split
  · exact .failed _ _
  · rename_i draft hdraft
    split_ifs
    · exact .failed _ _
    · exact .failed _ _
    · exact .restated _ _ (by simp) draftId draft hdraft .cancelled

variable (fmt repo) in
/-- **A call** does nothing, writes a draft, changes the status of one, or executes one. -/
theorem effect_exec (op : FloatOp) :
    Effect fmt repo op (repo.exec fmt op).1 (repo.exec fmt op).2 := by
  cases op with
  | createTransferDraft args => exact effect_createTransferDraft args
  | submitTransfer draftId userId now => exact effect_submitTransfer draftId userId now
  | cancelTransfer draftId userId => exact effect_cancelTransfer draftId userId

/-! ## Without `NaN` -/

/-- Every balance is a finite number, and every amount a positive one. -/
structure Sane (repo : FloatRepository) : Prop where
  balances : ∀ id acc, repo.accounts.lookup id = some acc → ∃ q h, acc.balance = .finite q h
  amounts : ∀ id draft, repo.transferDrafts.lookup id = some draft →
    ∃ q h, draft.amount = .finite q h ∧ 0 < q

/-- The account exists, and its balance is finite and not negative. -/
def Solvent (repo : FloatRepository) (accountId : String) : Prop :=
  ∃ acc, repo.accounts.lookup accountId = some acc ∧ acc.balance.FiniteNonNeg

/-- The call is no draft of an amount that is `NaN` and otherwise in order. -/
def NoNaN (repo : FloatRepository) (op : FloatOp) : Prop :=
  ∀ args, op = .createTransferDraft args → args.amount = .float .nan → ¬ OtherwiseInOrder repo args

/-- What the checks let through is positive, within the limit and covered. -/
theorem Sane.admitted {amount : PyFloat} (h : repo.Sane) (hnan : amount ≠ .nan)
    (hcheck : repo.draftError fmt args amount = none) :
    ∃ q hq acc p hp, amount = .finite q hq ∧ 0 < q ∧ q ≤ 100000 ∧
      repo.accounts.lookup args.sourceAccountId = some acc ∧ acc.balance = .finite p hp ∧ q ≤ p := by
  obtain ⟨acc, hacc, hzero, hlimit, hfunds⟩ := draftError_eq_none.mp hcheck
  obtain ⟨q, hq, rfl, hpos, hle⟩ := Number.exists_finite hnan hzero hlimit
  obtain ⟨p, hp, hbalance⟩ := h.balances _ _ hacc.account
  refine ⟨q, hq, acc, p, hp, rfl, hpos, hle, hacc.account, hbalance, ?_⟩
  simpa [hbalance, Number.lt] using hfunds

/-- Only `NaN` becomes `NaN`. -/
theorem eq_nan_of_toFloat {x : PyNumber} (h : x.toFloat = some .nan) : x = .float .nan := by
  cases x with
  | int n =>
    -- the equation of `toFloat` would evaluate the rounding
    delta PyNumber.toFloat at h
    dsimp only at h
    cases hround : Number.round binary64 n <;> simp [hround] at h
    exact absurd hround (Number.round_ne_nan _)
  | float x => rw [Option.some.inj h]

theorem amount_ne_nan {amount : PyFloat} (hnan : repo.NoNaN (.createTransferDraft args))
    (hamount : args.amount.toFloat = some amount) (hcheck : repo.draftError fmt args amount = none)
    (hkey : args.idempotencyKey ∉ repo.completedTransfers) : amount ≠ .nan := by
  rintro rfl
  obtain ⟨acc, hacc, -⟩ := draftError_eq_none.mp hcheck
  exact hnan args rfl (eq_nan_of_toFloat hamount)
    ⟨⟨acc, hacc.account, hacc.active, hacc.owner⟩, hacc.beneficiary, hacc.currency, hkey⟩

theorem Sane.putDraft (h : repo.Sane) (draftId : String)
    (hamount : ∃ q hq, draft.amount = .finite q hq ∧ 0 < q) : (repo.putDraft draftId draft).Sane where
  balances := h.balances
  amounts id draft' hdraft' := by
    rcases eq_or_ne id draftId with rfl | hne
    · rw [FloatRepository.putDraft, AList.lookup_insert, Option.some_inj] at hdraft'
      exact hdraft' ▸ hamount
    · rw [FloatRepository.putDraft, AList.lookup_insert_ne hne] at hdraft'
      exact h.amounts id draft' hdraft'

/-- What is left after a transfer is finite and not negative. -/
theorem Sane.sub_finiteNonNeg {draftId : String} {acc : FloatAccount} (h : repo.Sane)
    (hdraft : repo.transferDrafts.lookup draftId = some draft)
    (hacc : repo.accounts.lookup draft.sourceAccountId = some acc)
    (hfunds : acc.balance.lt draft.amount = false) :
    (acc.balance.sub draft.amount).FiniteNonNeg := by
  obtain ⟨q, hq, hamount, hpos⟩ := h.amounts _ _ hdraft
  obtain ⟨p, hp, hbalance⟩ := h.balances _ _ hacc
  rw [hamount, hbalance] at hfunds ⊢
  exact Number.sub_finiteNonNeg hp hq hpos.le (by simpa [Number.lt] using hfunds)

theorem Sane.execute {draftId : String} {acc : FloatAccount} (h : repo.Sane)
    (hdraft : repo.transferDrafts.lookup draftId = some draft)
    (hacc : repo.accounts.lookup draft.sourceAccountId = some acc)
    (hfunds : acc.balance.lt draft.amount = false) : (repo.execute draftId draft acc).Sane where
  balances id acc' hacc' := by
    rcases eq_or_ne id draft.sourceAccountId with rfl | hne
    · rw [FloatRepository.execute, AList.lookup_insert, Option.some_inj] at hacc'
      obtain ⟨q, hq, heq, -⟩ := h.sub_finiteNonNeg hdraft hacc hfunds
      exact ⟨q, hq, hacc' ▸ heq⟩
    · rw [FloatRepository.execute, AList.lookup_insert_ne hne] at hacc'
      exact h.balances id acc' hacc'
  amounts id draft' hdraft' := by
    rcases eq_or_ne id draftId with rfl | hne
    · rw [FloatRepository.execute, AList.lookup_insert, Option.some_inj] at hdraft'
      exact hdraft' ▸ h.amounts id draft hdraft
    · rw [FloatRepository.execute, AList.lookup_insert_ne hne] at hdraft'
      exact h.amounts id draft' hdraft'

/-- **A call** without `NaN` keeps the numbers sane. -/
theorem Effect.sane (heffect : Effect fmt repo op reply repo') (h : repo.Sane)
    (hnan : repo.NoNaN op) : repo'.Sane := by
  cases heffect with
  | failed => exact h
  | drafted args amount hamount hcheck hkey =>
    obtain ⟨q, hq, -, -, -, rfl, hpos, -⟩ :=
      h.admitted (amount_ne_nan hnan hamount hcheck hkey) hcheck
    exact h.putDraft args.uuid ⟨q, hq, rfl, hpos⟩
  | restated _ _ _ draftId draft hdraft status =>
    exact h.putDraft draftId (h.amounts draftId draft hdraft)
  | executed draftId userId now draft acc hdraft hacc hfunds => exact h.execute hdraft hacc hfunds

/-- **A call** keeps a solvent account solvent. -/
theorem Effect.solvent {accountId : String} (heffect : Effect fmt repo op reply repo')
    (h : repo.Sane) (hsolvent : repo.Solvent accountId) : repo'.Solvent accountId := by
  cases heffect with
  | failed => exact hsolvent
  | drafted => exact hsolvent
  | restated => exact hsolvent
  | executed draftId userId now draft acc hdraft hacc hfunds =>
    rcases eq_or_ne accountId draft.sourceAccountId with rfl | hne
    · exact ⟨_, AList.lookup_insert _, h.sub_finiteNonNeg hdraft hacc hfunds⟩
    · -- the money of another account moves
      obtain ⟨acc', hacc', hfinite⟩ := hsolvent
      exact ⟨acc', (AList.lookup_insert_ne hne).trans hacc', hfinite⟩

/-- A draft that is admitted is sound, and its account is solvent. -/
theorem Effect.sound (heffect : Effect fmt repo op (.drafted draft) repo') (h : repo.Sane)
    (hnan : repo.NoNaN op) : DraftSound repo draft ∧ repo.Solvent draft.sourceAccountId := by
  cases heffect with
  | restated _ _ hother => exact absurd rfl (hother draft)
  | drafted args amount hamount hcheck hkey =>
    obtain ⟨q, hq, acc, p, hp, rfl, hpos, hlimit, hacc, hbalance, hle⟩ :=
      h.admitted (amount_ne_nan hnan hamount hcheck hkey) hcheck
    refine ⟨⟨?_, ?_, acc, hacc, ?_⟩, acc, hacc, p, hp, hbalance, hpos.le.trans hle⟩
    · simpa [DraftArgs.draft, floatZero, Number.lt] using hpos
    · simpa [DraftArgs.draft, floatTransactionLimit, Number.le] using hlimit
    · simpa [DraftArgs.draft, hbalance, Number.le] using hle

/-! ## Runs -/

theorem after_append (before rest : List FloatOp) :
    repo.after fmt (before ++ rest) = (repo.after fmt before).after fmt rest :=
  List.foldl_append

theorem after_concat (before : List FloatOp) (op : FloatOp) :
    repo.after fmt (before ++ [op]) = ((repo.after fmt before).exec fmt op).2 := by
  simp [after]

theorem sane_of_loaded (h : Loaded repo) : repo.Sane where
  balances := h.balances
  amounts id draft hdraft := by simp [h.drafts] at hdraft

theorem noNaN_of_neverNaN {ops before rest : List FloatOp} (h : NeverNaN fmt repo ops)
    (hops : ops = before ++ op :: rest) : (repo.after fmt before).NoNaN op := by
  rintro args rfl
  exact h before args rest hops

/-- **A run** without `NaN` from loaded fixtures keeps the numbers sane. -/
theorem sane_after {ops : List FloatOp} (hloaded : Loaded repo) (h : NeverNaN fmt repo ops)
    (before rest : List FloatOp) (hops : ops = before ++ rest) : (repo.after fmt before).Sane := by
  induction before using List.reverseRecOn generalizing rest with
  | nil => exact sane_of_loaded hloaded
  | append_singleton before op ih =>
    rw [List.append_assoc] at hops
    rw [after_concat]
    exact (effect_exec fmt _ op).sane (ih _ hops) (noNaN_of_neverNaN h hops)

theorem solvent_after {ops : List FloatOp} {accountId : String} (hloaded : Loaded repo)
    (h : NeverNaN fmt repo ops) (before later rest : List FloatOp)
    (hops : ops = before ++ later ++ rest) (hsolvent : (repo.after fmt before).Solvent accountId) :
    (repo.after fmt (before ++ later)).Solvent accountId := by
  induction later using List.reverseRecOn generalizing rest with
  | nil => simpa using hsolvent
  | append_singleton later op ih =>
    have hprefix : ops = before ++ later ++ op :: rest := by simpa using hops
    rw [← List.append_assoc, after_concat]
    exact (effect_exec fmt _ op).solvent (sane_after hloaded h _ _ hprefix) (ih _ hprefix)

theorem sound_after {ops before rest : List FloatOp} (hloaded : Loaded repo)
    (h : NeverNaN fmt repo ops) (hops : ops = before ++ op :: rest)
    (hreply : ((repo.after fmt before).exec fmt op).1 = .drafted draft) :
    DraftSound (repo.after fmt before) draft ∧
      (repo.after fmt before).Solvent draft.sourceAccountId :=
  (hreply ▸ effect_exec fmt (repo.after fmt before) op).sound (sane_after hloaded h _ _ hops)
    (noNaN_of_neverNaN h hops)

theorem guardHolds_of_neverNaN {ops : List FloatOp} (hloaded : Loaded repo)
    (h : NeverNaN fmt repo ops) : GuardHolds fmt repo ops where
  admits before op rest draft hops hreply := (sound_after hloaded h hops hreply).1
  stays before op later rest draft hops hreply := by
    have hop : ops = before ++ op :: (later ++ rest) := by simpa using hops
    exact solvent_after hloaded h _ _ _ hops (sound_after hloaded h hop hreply).2

/-- No guard fires for `NaN`. -/
theorem drafted_of_nan (hamount : args.amount = .float .nan) (horder : OtherwiseInOrder repo args) :
    (repo.createTransferDraft fmt args).1 = .drafted (args.draft .nan) := by
  obtain ⟨⟨acc, hacc, hactive, howner⟩, hben, hcurrency, hkey⟩ := horder
  have hcheck : repo.draftError fmt args .nan = none :=
    draftError_eq_none.mpr ⟨acc, ⟨hacc, hactive, howner, hben, hcurrency⟩, rfl, rfl,
      by cases acc.balance <;> rfl⟩
  simp [createTransferDraft, hamount, hcheck, hkey]

theorem neverNaN_of_guardHolds {ops : List FloatOp} (h : GuardHolds fmt repo ops) :
    NeverNaN fmt repo ops := by
  intro before args rest hops hamount horder
  -- the draft would be admitted, but `NaN` is not positive
  have hsound := h.admits before _ rest _ hops (drafted_of_nan hamount horder)
  simpa [DraftArgs.draft, floatZero, Number.lt] using hsound.positive

end FloatRepository

/-- **Drafts over every number.** In a run from loaded fixtures, every draft that is admitted is
sound and its account stays finite and covered, exactly if no amount that is `NaN` comes with an
account, a beneficiary, a currency and a key that are in order. -/
theorem draft_guard_iff (fmt : PyFloat → String) (repo : FloatRepository) (h : Loaded repo)
    (ops : List FloatOp) : GuardHolds fmt repo ops ↔ NeverNaN fmt repo ops :=
  ⟨FloatRepository.neverNaN_of_guardHolds, FloatRepository.guardHolds_of_neverNaN h⟩

/-! ## Two runs -/

theorem fifty_representable : binary64.Representable 50 := by
  have := FloatFormat.representable_intCast (F := binary64) (n := 50) (by decide) (by decide)
    (by decide)
  simpa using this

/-- One account of 50, and one beneficiary. -/
def fiftyRepository : FloatRepository where
  accounts := AList.insert "ACC" ⟨"ACC", "alice", .finite 50 fifty_representable, true⟩ ∅
  beneficiaries := AList.insert "BEN" ⟨"BEN", "Bob", true⟩ ∅
  transferDrafts := ∅
  completedTransfers := ∅

/-- A draft of this amount. -/
def fiftyDraft (amount : PyFloat) : FloatOp :=
  .createTransferDraft ⟨"ACC", "BEN", .float amount, "USD", "alice", "", "", 0, "DRAFT"⟩

theorem fiftyRepository_loaded : Loaded fiftyRepository where
  balances id acc h := by
    rcases eq_or_ne id "ACC" with rfl | hne
    · rw [fiftyRepository, AList.lookup_insert, Option.some_inj] at h
      exact ⟨50, fifty_representable, h ▸ rfl⟩
    · rw [fiftyRepository, AList.lookup_insert_ne hne] at h
      simp at h
  drafts := rfl

/-- All the money can be drafted. -/
theorem fifty_drafted :
    (∃ draft, (fiftyRepository.exec (fun _ => "50.0")
        (fiftyDraft (.finite 50 fifty_representable))).1 = .drafted draft) ∧
      GuardHolds (fun _ => "50.0") fiftyRepository [fiftyDraft (.finite 50 fifty_representable)] := by
  refine ⟨⟨_, rfl⟩, (draft_guard_iff _ _ fiftyRepository_loaded _).mpr ?_⟩
  intro before args rest hops hamount
  cases before with
  | nil =>
    obtain ⟨hop, -⟩ := List.cons_eq_cons.mp hops
    rw [← FloatOp.createTransferDraft.inj hop] at hamount
    simp at hamount
  | cons => simp at hops

/-- A draft of `NaN`, and its submission. -/
def nanCalls : List FloatOp := [fiftyDraft .nan, .submitTransfer "DRAFT" "alice" 1]

/-- The draft of `NaN` is admitted, and its submission leaves a balance that is `NaN`: from then
on every amount is covered. -/
theorem nan_drafted :
    Loaded fiftyRepository ∧
      ((fiftyRepository.after (fun _ => "nan") nanCalls).accounts.lookup "ACC").map
        FloatAccount.balance = some .nan ∧
      ¬ GuardHolds (fun _ => "nan") fiftyRepository nanCalls := by
  refine ⟨fiftyRepository_loaded, rfl, fun h => ?_⟩
  have hsound := h.admits [] (fiftyDraft .nan) _ _ rfl rfl
  simpa [DraftArgs.draft, floatZero, Number.lt] using hsound.positive

end BankingAgent
