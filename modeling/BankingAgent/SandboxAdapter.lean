import BankingAgent.Banking.Repository

/-!
# `sandbox_banking.py`: the sandbox adapter

The adapter is what contracts with real payment rails are tested against. It moves money if the
source account is there and its balance is not below the amount. It looks neither at the sign of
the amount nor at the idempotency key, which the port asks to be passed on.

* `mem_debitedKeys_iff` — the keys that have paid are those of the calls that lowered a balance.
* `ledger_holds_iff` — over a whole history the balances only go down, and a key pays once,
  exactly if no negative amount and no key that has paid already is admitted.
-/

namespace BankingAgent

/-! ## The model -/

/-- `AccountInfo`. -/
structure AccountInfo : Type where
  accountId : String
  ownerId : String
  balance : ℚ
  currency : String
  accountType : String
  active : Bool

/-- `TransferRequest`. -/
structure TransferRequest : Type where
  sourceAccountId : String
  beneficiaryId : String
  amount : ℚ
  currency : String
  reference : String
  idempotencyKey : String
  correlationId : String

/-- `TransferResponse`. -/
structure TransferResponse : Type where
  success : Bool
  transactionId : String
  status : String
  failureReason : String
  upstreamReference : String

/-- A refusal. -/
def TransferResponse.failure (reason : String) : TransferResponse := ⟨false, "", "", reason, ""⟩

/-- `SandboxBankingAdapter`. -/
structure SandboxBankingAdapter : Type where
  accounts : AList fun _ : String => AccountInfo
  transfers : AList fun _ : String => TransferResponse

/-- A call that moves money: the request and the tenant, and the eight digits that are drawn
for the transaction. -/
inductive AdapterCall : Type where
  | submitTransfer (request : TransferRequest) (tenantId digits : String)
  | initiatePayment (request : TransferRequest) (tenantId digits : String)

namespace SandboxBankingAdapter

/-- `_seed_data`. -/
def seedData : AList fun _ : String => AccountInfo :=
  (((∅ : AList fun _ : String => AccountInfo).insert "ACC-1001"
      ⟨"ACC-1001", "user-alice", 15000, "USD", "checking", true⟩).insert "ACC-1002"
      ⟨"ACC-1002", "user-bob", 8500, "USD", "savings", true⟩).insert "ACC-1003"
      ⟨"ACC-1003", "user-carol", 25000, "USD", "checking", true⟩

/-- `__post_init__`: accounts that are not given are seeded. -/
def create (accounts : AList fun _ : String => AccountInfo) : SandboxBankingAdapter :=
  ⟨if accounts.keys = [] then seedData else accounts, ∅⟩

/-- `submit_transfer`. -/
def submitTransfer (adapter : SandboxBankingAdapter) (request : TransferRequest)
    (digits : String) : TransferResponse × SandboxBankingAdapter :=
  match adapter.accounts.lookup request.sourceAccountId with
  | none => (.failure "Source account not found", adapter)
  | some source =>
    if source.balance < request.amount then (.failure "Insufficient funds", adapter)
    else
      let txnId := s!"TXN-{digits}"
      let resp : TransferResponse := ⟨true, txnId, "completed", "", s!"SAND-{txnId}"⟩
      (resp,
        { accounts := adapter.accounts.insert request.sourceAccountId
            { source with balance := source.balance - request.amount }
          transfers := adapter.transfers.insert txnId resp })

/-- `initiate_payment`. -/
def initiatePayment (adapter : SandboxBankingAdapter) (request : TransferRequest)
    (digits : String) : TransferResponse × SandboxBankingAdapter :=
  adapter.submitTransfer request digits

/-- One call. The tenant is not looked at. -/
def exec (adapter : SandboxBankingAdapter) : AdapterCall → TransferResponse × SandboxBankingAdapter
  | .submitTransfer request _ digits => adapter.submitTransfer request digits
  | .initiatePayment request _ digits => adapter.initiatePayment request digits

/-- The adapter after a sequence of calls. -/
def after (adapter : SandboxBankingAdapter) (calls : List AdapterCall) : SandboxBankingAdapter :=
  calls.foldl (fun a call => (a.exec call).2) adapter

end SandboxBankingAdapter

/-! ## What a ledger is -/

/-- The request of a call. -/
def AdapterCall.request : AdapterCall → TransferRequest
  | submitTransfer request _ _ => request
  | initiatePayment request _ _ => request

/-- What the adapter asks for: the source is there, and its balance is not below the amount. -/
def Admits (adapter : SandboxBankingAdapter) (request : TransferRequest) : Bool :=
  match adapter.accounts.lookup request.sourceAccountId with
  | none => false
  | some source => request.amount ≤ source.balance

/-- The call lowers the balance of its source. -/
def LowersBalance (adapter : SandboxBankingAdapter) (call : AdapterCall) : Prop :=
  ∃ acc acc', adapter.accounts.lookup call.request.sourceAccountId = some acc ∧
    (adapter.exec call).2.accounts.lookup call.request.sourceAccountId = some acc' ∧
    acc'.balance < acc.balance

/-- The keys that have paid: those of the calls that have debited an account. -/
def debitedKeys : SandboxBankingAdapter → List AdapterCall → List String
  | _, [] => []
  | adapter, call :: calls =>
    (if Admits adapter call.request ∧ 0 < call.request.amount ∧ call.request.idempotencyKey ≠ ""
      then [call.request.idempotencyKey] else []) ++ debitedKeys (adapter.exec call).2 calls

/-- The balance of every account stays: it is there later, and not greater. -/
def NeverIncreases (adapter later : SandboxBankingAdapter) : Prop :=
  ∀ id acc, adapter.accounts.lookup id = some acc →
    ∃ acc', later.accounts.lookup id = some acc' ∧ acc'.balance ≤ acc.balance

/-- No balance is negative. -/
def NonNegative (adapter : SandboxBankingAdapter) : Prop :=
  ∀ id acc, adapter.accounts.lookup id = some acc → 0 ≤ acc.balance

/-- What is expected of the adapter over a history. -/
structure LedgerHolds (adapter : SandboxBankingAdapter) (calls : List AdapterCall) : Prop where
  nonneg : NonNegative adapter → ∀ before rest, calls = before ++ rest →
    NonNegative (adapter.after before)
  antitone : ∀ before later rest, calls = before ++ later ++ rest →
    NeverIncreases (adapter.after before) (adapter.after (before ++ later))
  once : (debitedKeys adapter calls).Nodup

/-- Every request the adapter admits has an amount that is not negative, and, if it takes
something, no key that has paid before. -/
def NeverSlips (adapter : SandboxBankingAdapter) (calls : List AdapterCall) : Prop :=
  ∀ before call rest, calls = before ++ call :: rest →
    Admits (adapter.after before) call.request = true →
      0 ≤ call.request.amount ∧ (0 < call.request.amount → call.request.idempotencyKey ≠ "" →
        call.request.idempotencyKey ∉ debitedKeys adapter before)

/-! ## One call -/

section Call

variable {adapter : SandboxBankingAdapter} {call : AdapterCall} {before calls : List AdapterCall}

/-- What a call does: nothing, or the amount leaves the source. -/
theorem exec_cases (adapter : SandboxBankingAdapter) (call : AdapterCall) :
    (Admits adapter call.request = false ∧ (adapter.exec call).2 = adapter) ∨
      ∃ source, adapter.accounts.lookup call.request.sourceAccountId = some source ∧
        Admits adapter call.request = true ∧ call.request.amount ≤ source.balance ∧
        (adapter.exec call).2.accounts = adapter.accounts.insert call.request.sourceAccountId
          { source with balance := source.balance - call.request.amount } := by
  have hexec : ∃ digits, adapter.exec call = adapter.submitTransfer call.request digits := by
    cases call <;> exact ⟨_, rfl⟩
  obtain ⟨digits, hexec⟩ := hexec
  rw [hexec]
  unfold SandboxBankingAdapter.submitTransfer Admits
  cases adapter.accounts.lookup call.request.sourceAccountId with
  | none => exact .inl ⟨rfl, rfl⟩
  | some source =>
    by_cases hfunds : source.balance < call.request.amount
    · exact .inl ⟨by simpa using hfunds, by simp [hfunds]⟩
    · have hle := not_lt.mp hfunds
      exact .inr ⟨source, rfl, by simpa using hle, hle, by simp [hfunds]⟩

theorem nonNegative_exec (h : NonNegative adapter) : NonNegative (adapter.exec call).2 := by
  rcases exec_cases adapter call with ⟨-, hafter⟩ | ⟨source, -, -, hle, hafter⟩
  · rwa [hafter]
  · intro id acc hacc
    rw [hafter] at hacc
    by_cases hid : id = call.request.sourceAccountId
    · subst hid
      rw [AList.lookup_insert] at hacc
      obtain rfl := Option.some.inj hacc
      exact sub_nonneg.mpr hle
    · rw [AList.lookup_insert_ne hid] at hacc
      exact h id acc hacc

theorem NeverIncreases.refl (adapter : SandboxBankingAdapter) : NeverIncreases adapter adapter :=
  fun _ acc hacc => ⟨acc, hacc, le_rfl⟩

theorem NeverIncreases.trans {a b c : SandboxBankingAdapter} (hab : NeverIncreases a b)
    (hbc : NeverIncreases b c) : NeverIncreases a c := by
  intro id acc hacc
  obtain ⟨acc', hacc', hle⟩ := hab id acc hacc
  obtain ⟨acc'', hacc'', hle'⟩ := hbc id acc' hacc'
  exact ⟨acc'', hacc'', hle'.trans hle⟩

/-- A call raises no balance exactly if it is not admitted with a negative amount. -/
theorem neverIncreases_exec_iff : NeverIncreases adapter (adapter.exec call).2 ↔
    (Admits adapter call.request = true → 0 ≤ call.request.amount) := by
  rcases exec_cases adapter call with ⟨hrefused, hafter⟩ | ⟨source, hsource, hadmits, -, hafter⟩
  · rw [hafter]
    exact iff_of_true (.refl adapter) fun h => by rw [hrefused] at h; cases h
  · constructor
    · intro h _
      obtain ⟨acc', hacc', hle⟩ := h _ source hsource
      rw [hafter, AList.lookup_insert] at hacc'
      obtain rfl := Option.some.inj hacc'
      simpa using hle
    · intro h id acc hacc
      rw [hafter]
      by_cases hid : id = call.request.sourceAccountId
      · subst hid
        obtain rfl := Option.some.inj (hsource.symm.trans hacc)
        exact ⟨_, AList.lookup_insert _, sub_le_self _ (h hadmits)⟩
      · exact ⟨acc, (AList.lookup_insert_ne hid).trans hacc, le_rfl⟩

/-! ## A history -/

theorem SandboxBankingAdapter.after_append (calls calls' : List AdapterCall) :
    adapter.after (calls ++ calls') = (adapter.after calls).after calls' := List.foldl_append

theorem debitedKeys_append (calls' : List AdapterCall) :
    debitedKeys adapter (calls ++ calls') =
      debitedKeys adapter calls ++ debitedKeys (adapter.after calls) calls' := by
  induction calls generalizing adapter with
  | nil => rfl
  | cons call calls ih =>
    rw [List.cons_append, debitedKeys, debitedKeys, ih, List.append_assoc]
    rfl

/-- A call lowers the balance of its source exactly if it is admitted with a positive amount. -/
theorem lowersBalance_iff : LowersBalance adapter call ↔
    Admits adapter call.request = true ∧ 0 < call.request.amount := by
  rcases exec_cases adapter call with ⟨hrefused, hafter⟩ | ⟨source, hsource, hadmits, -, hafter⟩
  · rw [LowersBalance, hafter, hrefused]
    constructor
    · rintro ⟨acc, acc', hacc, hacc', hlt⟩
      obtain rfl := Option.some.inj (hacc.symm.trans hacc')
      exact absurd hlt (lt_irrefl _)
    · rintro ⟨h, -⟩
      cases h
  · rw [LowersBalance, hafter, AList.lookup_insert, hsource, and_iff_right hadmits]
    constructor
    · rintro ⟨acc, acc', hacc, hacc', hlt⟩
      obtain rfl := Option.some.inj hacc
      obtain rfl := Option.some.inj hacc'
      exact (sub_lt_self_iff _).mp hlt
    · exact fun hpos => ⟨_, _, rfl, rfl, sub_lt_self _ hpos⟩

/-- **The keys that have paid** are those of the calls that lowered a balance. -/
theorem mem_debitedKeys_iff {key : String} : key ∈ debitedKeys adapter calls ↔
    key ≠ "" ∧ ∃ before call rest, calls = before ++ call :: rest ∧
      call.request.idempotencyKey = key ∧ LowersBalance (adapter.after before) call := by
  induction calls generalizing adapter with
  | nil => simp [debitedKeys]
  | cons call calls ih =>
    rw [debitedKeys, List.mem_append, ih]
    constructor
    · rintro (hkey | ⟨hne, before, later, rest, rfl, hkey, hlowers⟩)
      · split at hkey
        · rename_i hdebits
          obtain rfl := List.mem_singleton.mp hkey
          exact ⟨hdebits.2.2, [], call, calls, rfl, rfl,
            lowersBalance_iff.mpr ⟨hdebits.1, hdebits.2.1⟩⟩
        · cases hkey
      · exact ⟨hne, call :: before, later, rest, rfl, hkey, hlowers⟩
    · rintro ⟨hne, before, later, rest, hcalls, rfl, hlowers⟩
      cases before with
      | nil =>
        obtain ⟨rfl, rfl⟩ := List.cons_eq_cons.mp hcalls
        obtain ⟨hadmits, hpos⟩ := lowersBalance_iff.mp hlowers
        rw [if_pos ⟨hadmits, hpos, hne⟩]
        exact .inl (List.mem_singleton_self _)
      | cons first before =>
        obtain ⟨rfl, rfl⟩ := List.cons_eq_cons.mp hcalls
        exact .inr ⟨hne, before, later, rest, rfl, rfl, hlowers⟩

theorem NeverSlips.of_append {calls' : List AdapterCall} (h : NeverSlips adapter (calls ++ calls')) :
    NeverSlips adapter calls := by
  rintro before call rest rfl
  exact h before call (rest ++ calls') (by simp)

/-- **No balance becomes negative**, whatever is asked for. -/
theorem nonNegative_after (h : NonNegative adapter) : NonNegative (adapter.after calls) := by
  induction calls generalizing adapter with
  | nil => exact h
  | cons call calls ih => exact ih (nonNegative_exec h)

/-- **Balances only go down** in a history without a slip. -/
theorem NeverSlips.antitone {later : List AdapterCall}
    (h : NeverSlips adapter (before ++ later)) :
    NeverIncreases (adapter.after before) (adapter.after (before ++ later)) := by
  induction later using List.reverseRecOn with
  | nil =>
    rw [List.append_nil]
    exact .refl _
  | append_singleton later call ih =>
    rw [← List.append_assoc] at h ⊢
    refine (ih h.of_append).trans ?_
    rw [SandboxBankingAdapter.after_append (before ++ later)]
    exact neverIncreases_exec_iff.mpr fun hadmits => (h _ call [] rfl hadmits).1

/-- **A key pays once** in a history without a slip. -/
theorem NeverSlips.once (h : NeverSlips adapter calls) : (debitedKeys adapter calls).Nodup := by
  induction calls using List.reverseRecOn with
  | nil => exact List.nodup_nil
  | append_singleton calls call ih =>
    rw [debitedKeys_append, debitedKeys, debitedKeys, List.append_nil]
    split
    · rename_i hdebits
      obtain ⟨hadmits, hpos, hkey⟩ := hdebits
      refine (ih h.of_append).append (List.nodup_singleton _) ?_
      rw [List.disjoint_singleton]
      exact (h calls call [] rfl hadmits).2 hpos hkey
    · rw [List.append_nil]
      exact ih h.of_append

theorem NeverSlips.holds (h : NeverSlips adapter calls) : LedgerHolds adapter calls where
  nonneg hnonneg _ _ _ := nonNegative_after hnonneg
  antitone := by
    rintro before later rest rfl
    exact h.of_append.antitone
  once := h.once

theorem LedgerHolds.neverSlips (h : LedgerHolds adapter calls) : NeverSlips adapter calls := by
  rintro before call rest rfl hadmits
  refine ⟨?_, fun hpos hkey hmem => ?_⟩
  · have hstep := h.antitone before [call] rest (by simp)
    rw [SandboxBankingAdapter.after_append] at hstep
    exact neverIncreases_exec_iff.mp hstep hadmits
  · have honce := h.once
    rw [debitedKeys_append, debitedKeys, if_pos ⟨hadmits, hpos, hkey⟩] at honce
    exact (List.nodup_append.mp honce).2.2 _ hmem _ (List.mem_append_left _ (by simp)) rfl

end Call

/-- **The adapter keeps its ledger** over a history exactly if it admits no negative amount and
no key that has paid before. -/
theorem ledger_holds_iff (adapter : SandboxBankingAdapter) (calls : List AdapterCall) :
    LedgerHolds adapter calls ↔ NeverSlips adapter calls :=
  ⟨LedgerHolds.neverSlips, NeverSlips.holds⟩

/-- One request for a hundred dollars, with a key. -/
def rentRequest : TransferRequest := ⟨"ACC-1001", "BEN-1", 100, "USD", "rent", "key-1", ""⟩

/-- A transfer, and the same request again through the other entry point. -/
def retriedCalls : List AdapterCall :=
  [.submitTransfer rentRequest "default" "00000001", .initiatePayment rentRequest "default" "00000002"]

/-- The retry takes the money again. -/
theorem retry_debits_again :
    ¬ LedgerHolds (.create ∅) retriedCalls := by
  intro h
  exact absurd h.once (by decide +kernel)

end BankingAgent
