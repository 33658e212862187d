import BankingAgent.Banking.Repository

/-!
# The ledger

A draft is checked when it is created and executed later, against balances and keys
that other drafts have changed meanwhile. What holds all the same: money leaves an
account only through a completed draft, once, and the transactions of the account list
these drafts in the order of their completion.

`Invocation.Effect` says once what an invocation can do to the repository. The
invariant `Ledger` is preserved by each of its four cases.
-/

namespace BankingAgent

/-- The draft that a submission reports as completed. -/
def ToolOutcome.completed? : ToolOutcome → Option String
  | .ok (.submitted draftId .completed) => some draftId
  | _ => none

/-- A status that a draft never leaves. -/
def TransferStatus.IsFinal : TransferStatus → Prop
  | .completed | .cancelled | .failed => True
  | .draft | .pending => False

/-- What an invocation can do: nothing, create a draft, close a draft, or complete one. -/
inductive Invocation.Effect (fmt : TextFormat) (i : Invocation) (repo : BankingRepository) :
    ToolOutcome → BankingRepository → Prop
  | nothing (r : ToolOutcome) (hr : r.completed? = none) : Effect fmt i repo r repo
  | created (draft : TransferDraft) (acc : Account) (r : BankingReply)
      (htool : i.tool = .createTransferDraft draft.sourceAccountId draft.beneficiaryId
        draft.amount draft.currency draft.idempotencyKey draft.description)
      (hacc : repo.accounts.lookup draft.sourceAccountId = some acc)
      (howner : acc.ownerId = i.user)
      (hcurrency : draft.currency ∈ supportedCurrencies)
      (hstatus : draft.status = .draft)
      (hnew : i.Fresh repo → repo.transferDrafts.lookup draft.draftId = none)
      (hr : ToolOutcome.completed? (.ok r) = none) :
      Effect fmt i repo (.ok r) (repo.putDraft draft)
  | closed (draftId : String) (draft : TransferDraft) (status : TransferStatus) (r : ToolOutcome)
      (hdraft : repo.transferDrafts.lookup draftId = some draft)
      (howner : repo.ownerOf draft.sourceAccountId i.user = true)
      (hopen : ¬ draft.status.IsFinal) (hstatus : status ≠ .completed)
      (hr : r.completed? = none) :
      Effect fmt i repo r (repo.putDraft { draft with status := status })
  | completed (draftId : String) (draft : TransferDraft) (acc : Account)
      (hdraft : repo.transferDrafts.lookup draftId = some draft)
      (hstatus : draft.status = .draft)
      (hacc : repo.accounts.lookup draft.sourceAccountId = some acc)
      (howner : acc.ownerId = i.user)
      (hkey : draft.idempotencyKey = "" ∨ draft.idempotencyKey ∉ repo.completedTransfers)
      (hfunds : draft.amount ≤ acc.balance) :
      Effect fmt i repo (.ok (.submitted draft.draftId .completed))
        (repo.execute fmt draft acc i.later i.uuid)

section Effect

variable {fmt : TextFormat} {repo : BankingRepository} {i : Invocation}

theorem BankingRepository.ownAccount_eq_some_iff {accountId userId : String} {acc : Account} :
    repo.ownAccount accountId userId = some acc ↔
      repo.accounts.lookup accountId = some acc ∧ acc.ownerId = userId := by
  rw [ownAccount, Option.filter_eq_some_iff]
  simp

theorem BankingRepository.ownerOf_eq_true_iff {accountId userId : String} :
    repo.ownerOf accountId userId = true ↔
      ∃ acc, repo.accounts.lookup accountId = some acc ∧ acc.ownerId = userId := by
  rw [ownerOf]
  split
  · rename_i acc hacc
    simp [hacc]
  · rename_i hnone
    simp [hnone]

/-- What the checks of `create_transfer_draft` establish. -/
theorem BankingRepository.of_draftError_eq_none {source beneficiary currency user : String}
    {amount : ℚ} (h : repo.draftError fmt source beneficiary amount currency user = none) :
    ∃ acc, repo.accounts.lookup source = some acc ∧ acc.ownerId = user ∧
      currency ∈ supportedCurrencies := by
  rw [draftError] at h
  cases hacc : repo.accounts.lookup source with
  | none => rw [hacc] at h; cases h
  | some acc =>
    rw [hacc] at h
    simp only at h
    split at h
    · cases h
    · split at h
      · cases h
      · rename_i howner
        refine ⟨acc, rfl, not_not.mp howner, ?_⟩
        by_contra hcur
        -- every check up to the currency refuses, or the currency is refused
        revert h
        split
        · exact nofun
        · simp only [if_pos hcur]
          split_ifs <;> exact nofun

/-- A cancellation closes the draft, or refuses. -/
theorem Invocation.effect_cancelTransfer {draftId : String}
    (htool : i.tool = .cancelTransfer draftId) :
    i.Effect fmt repo (i.exec fmt repo).1 (i.exec fmt repo).2 := by
  obtain ⟨user, _, now, later, uuid⟩ := i
  obtain rfl := htool
  simp only [exec, BankingRepository.cancelTransfer]
  split
  · exact .nothing _ rfl
  · rename_i draft hdraft
    split
    · exact .nothing _ rfl
    · rename_i hopen
      split
      · exact .nothing _ rfl
      · rename_i howner
        refine .closed draftId draft .cancelled _ hdraft (by simpa using howner) ?_ (by decide) rfl
        cases hs : draft.status <;> simp_all [TransferStatus.IsFinal]

/-- A submission completes the draft, closes it once it has expired, or refuses. -/
theorem Invocation.effect_submitTransfer {draftId : String}
    (htool : i.tool = .submitTransfer draftId) :
    i.Effect fmt repo (i.exec fmt repo).1 (i.exec fmt repo).2 := by
  obtain ⟨user, _, now, later, uuid⟩ := i
  obtain rfl := htool
  simp only [exec, BankingRepository.submitTransfer]
  split
  · exact .nothing _ rfl
  · rename_i draft hdraft
    split
    · exact .nothing _ rfl
    · rename_i hstatus
      have hstatus : draft.status = .draft := not_not.mp hstatus
      split
      · exact .nothing _ rfl
      · rename_i acc hown
        obtain ⟨hacc, howner⟩ := BankingRepository.ownAccount_eq_some_iff.mp hown
        split
        · exact .closed draftId draft .failed _ hdraft
            (BankingRepository.ownerOf_eq_true_iff.mpr ⟨acc, hacc, howner⟩)
            (by rw [hstatus]; exact id) (by decide) rfl
        · split
          · exact .nothing _ rfl
          · rename_i hkey
            split
            · exact .nothing _ rfl
            · rename_i hfunds
              refine .completed draftId draft acc hdraft hstatus hacc howner ?_
                (not_lt.mp hfunds)
              by_cases hk : draft.idempotencyKey = ""
              · exact .inl hk
              · exact .inr fun hmem => hkey ⟨hk, hmem⟩

/-- **One invocation**: its effect is one of the four. -/
theorem Invocation.effect (fmt : TextFormat) (i : Invocation) (repo : BankingRepository) :
    i.Effect fmt repo (i.exec fmt repo).1 (i.exec fmt repo).2 := by
  obtain ⟨user, tool, now, later, uuid⟩ := i
  cases tool with
  | getAccountSummary accountId =>
    simp only [exec]
    split <;> exact .nothing _ rfl
  | getBalance accountId =>
    simp only [exec]
    split <;> exact .nothing _ rfl
  | listTransactions accountId limit =>
    simp only [exec]
    split <;> exact .nothing _ rfl
  | findBeneficiary beneficiaryId =>
    simp only [exec]
    split <;> exact .nothing _ rfl
  | getTransferStatus draftId =>
    simp only [exec]
    split <;> exact .nothing _ rfl
  | reportSuspiciousTransaction accountId transactionId reason => exact .nothing _ rfl
  | createTransferDraft source beneficiary amount currency key description =>
    simp only [exec, BankingRepository.createTransferDraft]
    split
    · exact .nothing _ rfl
    · rename_i hnone
      obtain ⟨acc, hacc, howner, hcur⟩ := BankingRepository.of_draftError_eq_none hnone
      split
      · exact .nothing _ rfl
      · exact .created _ acc _ rfl hacc howner hcur rfl
          (fun hfresh => AList.lookup_eq_none.mpr hfresh) rfl
  | cancelTransfer draftId => exact effect_cancelTransfer rfl
  | submitTransfer draftId => exact effect_submitTransfer rfl

end Effect

/-! ## The invariant -/

/-- What a transaction books: an amount of a currency. -/
def Transaction.booking (txn : Transaction) : ℚ × String := (txn.amount, txn.currency)

/-- What completing a draft books. -/
def TransferDraft.booking (draft : TransferDraft) : ℚ × String := (-draft.amount, draft.currency)

namespace BankingRepository

/-- The sum of the amounts of the completed drafts of an account. -/
def completedAmount (repo : BankingRepository) (accountId : String) : ℚ :=
  repo.transferDrafts.total fun d =>
    if d.status = .completed ∧ d.sourceAccountId = accountId then d.amount else 0

/-- Of the drafts with these ids, those of an account. -/
def draftsOf (repo : BankingRepository) (ids : List String) (accountId : String) :
    List TransferDraft :=
  ids.filterMap fun id =>
    (repo.transferDrafts.lookup id).filter fun d => d.sourceAccountId = accountId

/-- Drafts are stored under their ids. -/
def Keyed (repo : BankingRepository) : Prop :=
  ∀ id draft, repo.transferDrafts.lookup id = some draft → draft.draftId = id

/-- The draft with this id has been completed. -/
def IsCompleted (repo : BankingRepository) (id : String) (draft : TransferDraft) : Prop :=
  repo.transferDrafts.lookup id = some draft ∧ draft.status = .completed

end BankingRepository

/-- What holds of a repository that came from `start`, where `done` are the completed
drafts in the order of their completion. -/
structure Ledger (start repo : BankingRepository) (done : List String) : Prop where
  keyed : repo.Keyed
  /-- nothing but the balance of an account changes, by what its drafts moved -/
  account : ∀ id, repo.accounts.lookup id =
    (start.accounts.lookup id).map fun acc =>
      { acc with balance := acc.balance - repo.completedAmount id }
  nonneg : (∀ id acc, start.accounts.lookup id = some acc → 0 ≤ acc.balance) →
    ∀ id acc, repo.accounts.lookup id = some acc → 0 ≤ acc.balance
  nodup : done.Nodup
  mem_done : ∀ id, id ∈ done ↔ ∃ draft, repo.IsCompleted id draft
  entries : ∀ id, (repo.transactionsOf id).map Transaction.booking =
    (start.transactionsOf id).map Transaction.booking ++
      (repo.draftsOf done id).map TransferDraft.booking
  keys : ∀ key, key ∈ repo.completedTransfers ↔
    key ≠ "" ∧ ∃ id draft, repo.IsCompleted id draft ∧ draft.idempotencyKey = key
  unique : ∀ id id' draft draft', repo.IsCompleted id draft → repo.IsCompleted id' draft' →
    draft.idempotencyKey = draft'.idempotencyKey → draft.idempotencyKey ≠ "" → id = id'

section Steps

variable {fmt : TextFormat} {start repo : BankingRepository} {done : List String}

namespace BankingRepository

@[simp] theorem lookup_putDraft (draft : TransferDraft) (id : String) :
    (repo.putDraft draft).transferDrafts.lookup id =
      if id = draft.draftId then some draft else repo.transferDrafts.lookup id :=
  AList.lookup_insert_eq_ite _ _ _ _

@[simp] theorem accounts_putDraft (draft : TransferDraft) :
    (repo.putDraft draft).accounts = repo.accounts := rfl

@[simp] theorem completedTransfers_putDraft (draft : TransferDraft) :
    (repo.putDraft draft).completedTransfers = repo.completedTransfers := rfl

@[simp] theorem transactionsOf_putDraft (draft : TransferDraft) (id : String) :
    (repo.putDraft draft).transactionsOf id = repo.transactionsOf id := rfl

/-- A draft is written that is not completed, over none or one that was not either. -/
def Uncompleted (repo : BankingRepository) (draft : TransferDraft) : Prop :=
  draft.status ≠ .completed ∧
    ∀ old, repo.transferDrafts.lookup draft.draftId = some old → old.status ≠ .completed

/-- Closing a draft that is not completed completes none. -/
theorem Keyed.uncompleted (h : repo.Keyed) {id : String} {draft : TransferDraft}
    (hdraft : repo.transferDrafts.lookup id = some draft) (hopen : draft.status ≠ .completed)
    {status : TransferStatus} (hstatus : status ≠ .completed) :
    repo.Uncompleted { draft with status } := by
  refine ⟨hstatus, fun old hold => ?_⟩
  have hid : draft.draftId = id := h id draft hdraft
  rw [show old = draft from Option.some.inj (hold.symm.trans (hid ▸ hdraft))]
  exact hopen

theorem isCompleted_putDraft {draft : TransferDraft} (h : repo.Uncompleted draft) (id : String)
    (d : TransferDraft) : (repo.putDraft draft).IsCompleted id d ↔ repo.IsCompleted id d := by
  rw [IsCompleted]
  rw [lookup_putDraft]
  split
  · rename_i hid
    subst hid
    constructor
    · rintro ⟨hd, hc⟩
      exact absurd (Option.some.inj hd ▸ hc) h.1
    · rintro ⟨hd, hc⟩
      exact absurd hc (h.2 d hd)
  · rfl

theorem completedAmount_putDraft {draft : TransferDraft} (h : repo.Uncompleted draft)
    (id : String) : (repo.putDraft draft).completedAmount id = repo.completedAmount id := by
  unfold completedAmount putDraft
  cases hold : repo.transferDrafts.lookup draft.draftId with
  | none =>
    rw [AList.total_insert_of_notMem (AList.lookup_eq_none.mp hold),
      if_neg fun hc => h.1 hc.1, add_zero]
  | some old =>
    rw [AList.total_insert_of_lookup hold, if_neg fun hc => h.2 old hold hc.1,
      if_neg fun hc => h.1 hc.1, sub_zero, add_zero]

theorem draftsOf_append (ids ids' : List String) (accountId : String) :
    repo.draftsOf (ids ++ ids') accountId =
      repo.draftsOf ids accountId ++ repo.draftsOf ids' accountId :=
  List.filterMap_append

theorem draftsOf_singleton (id accountId : String) :
    repo.draftsOf [id] accountId = ((repo.transferDrafts.lookup id).filter fun d =>
      d.sourceAccountId = accountId).toList := by
  rw [draftsOf, List.filterMap_cons]
  split
  · rename_i h
    rw [h]
    rfl
  · rename_i h
    rw [h]
    rfl

/-- The drafts with given ids do not change where none of these is written. -/
theorem draftsOf_congr {repo' : BankingRepository} {ids : List String}
    (h : ∀ id ∈ ids, repo'.transferDrafts.lookup id = repo.transferDrafts.lookup id)
    (accountId : String) : repo'.draftsOf ids accountId = repo.draftsOf ids accountId :=
  List.filterMap_congr fun id hid => by rw [h id hid]

theorem Keyed.putDraft (h : repo.Keyed) (draft : TransferDraft) :
    (repo.putDraft draft).Keyed := by
  intro id d hd
  rw [lookup_putDraft] at hd
  split at hd
  · rename_i hid
    rw [← Option.some.inj hd, hid]
  · exact h id d hd

end BankingRepository

open BankingRepository

/-- A draft that is stored and not completed is none of those that are done. -/
theorem Ledger.notMem_done (h : Ledger start repo done) {id : String}
    (hopen : ∀ draft, repo.transferDrafts.lookup id = some draft → draft.status ≠ .completed) :
    id ∉ done := by
  intro hmem
  obtain ⟨draft, hdraft, hcompleted⟩ := (h.mem_done id).mp hmem
  exact hopen draft hdraft hcompleted

/-- Writing a draft that is not completed keeps the ledger. -/
theorem Ledger.putDraft (h : Ledger start repo done) {draft : TransferDraft}
    (hdraft : repo.Uncompleted draft) : Ledger start (repo.putDraft draft) done := by
  have hcompleted := isCompleted_putDraft hdraft
  refine ⟨h.keyed.putDraft draft, fun id => ?_, h.nonneg, h.nodup, fun id => ?_, fun id => ?_,
    fun key => ?_, fun id id' d d' hd hd' => ?_⟩
  · rw [completedAmount_putDraft hdraft]
    exact h.account id
  · simp only [hcompleted]
    exact h.mem_done id
  · rw [draftsOf_congr (fun id' hid' => ?_) id]
    · exact h.entries id
    · -- the draft that is written is none of those that are done
      rw [lookup_putDraft, if_neg]
      rintro rfl
      exact h.notMem_done hdraft.2 hid'
  · simp only [hcompleted]
    exact h.keys key
  · exact h.unique id id' d d' ((hcompleted id d).mp hd) ((hcompleted id' d').mp hd')

/-! ## Completing a draft -/

namespace BankingRepository

variable {draft : TransferDraft} {acc : Account} {now : ℤ} {uuid : String}

@[simp] theorem lookup_execute (id : String) :
    (repo.execute fmt draft acc now uuid).transferDrafts.lookup id =
      if id = draft.draftId then some { draft with status := .completed }
      else repo.transferDrafts.lookup id :=
  AList.lookup_insert_eq_ite _ _ _ _

@[simp] theorem lookup_accounts_execute (id : String) :
    (repo.execute fmt draft acc now uuid).accounts.lookup id =
      if id = draft.sourceAccountId then some { acc with balance := acc.balance - draft.amount }
      else repo.accounts.lookup id :=
  AList.lookup_insert_eq_ite _ _ _ _

theorem isCompleted_execute (hstatus : repo.transferDrafts.lookup draft.draftId = some draft)
    (hdraft : draft.status = .draft) (id : String) (d : TransferDraft) :
    (repo.execute fmt draft acc now uuid).IsCompleted id d ↔
      repo.IsCompleted id d ∨
        id = draft.draftId ∧ d = { draft with status := TransferStatus.completed } := by
  unfold IsCompleted
  rw [lookup_execute]
  by_cases hid : id = draft.draftId
  · subst hid
    rw [if_pos rfl, hstatus]
    constructor
    · rintro ⟨hd, -⟩
      exact .inr ⟨rfl, (Option.some.inj hd).symm⟩
    · rintro (⟨hd, hc⟩ | ⟨-, rfl⟩)
      · rw [← Option.some.inj hd, hdraft] at hc
        cases hc
      · exact ⟨rfl, rfl⟩
  · simp [hid]

theorem completedAmount_execute (hstatus : repo.transferDrafts.lookup draft.draftId = some draft)
    (hdraft : draft.status = .draft) (id : String) :
    (repo.execute fmt draft acc now uuid).completedAmount id =
      repo.completedAmount id + if draft.sourceAccountId = id then draft.amount else 0 := by
  unfold completedAmount execute
  rw [AList.total_insert_of_lookup hstatus, if_neg (by simp [hdraft]), sub_zero]
  simp

theorem mem_completedTransfers_execute {key : String} :
    key ∈ (repo.execute fmt draft acc now uuid).completedTransfers ↔
      key ∈ repo.completedTransfers ∨ key ≠ "" ∧ draft.idempotencyKey = key := by
  rw [execute]
  by_cases hk : draft.idempotencyKey = ""
  · simp only [hk]
    exact ⟨.inl, fun hor => hor.resolve_right fun hc => hc.1 hc.2.symm⟩
  · simp only [if_neg hk, Finset.mem_insert]
    constructor
    · rintro (rfl | hmem)
      · exact .inr ⟨hk, rfl⟩
      · exact .inl hmem
    · rintro (hmem | ⟨-, rfl⟩)
      · exact .inr hmem
      · exact .inl rfl

/-- The new transaction is the youngest of its account. -/
theorem bookings_execute (id : String) :
    ((repo.execute fmt draft acc now uuid).transactionsOf id).map Transaction.booking =
      (repo.transactionsOf id).map Transaction.booking ++
        if draft.sourceAccountId = id then [draft.booking] else [] := by
  rw [execute]
  rw [transactionsOf]
  simp only [AList.lookup_insert_eq_ite]
  by_cases hid : id = draft.sourceAccountId
  · simp [hid, Transaction.booking, TransferDraft.booking]
  · simp [hid, Ne.symm hid, transactionsOf]

theorem Keyed.execute (h : repo.Keyed) : (repo.execute fmt draft acc now uuid).Keyed := by
  intro id d hd
  rw [lookup_execute] at hd
  split at hd
  · rename_i hid
    rw [← Option.some.inj hd, hid]
  · exact h id d hd

/-- The draft that is completed is one more of the completed ones. -/
theorem exists_isCompleted_execute
    (hstatus : repo.transferDrafts.lookup draft.draftId = some draft)
    (hdraft : draft.status = .draft) (id : String) :
    (∃ d, (repo.execute fmt draft acc now uuid).IsCompleted id d) ↔
      (∃ d, repo.IsCompleted id d) ∨ id = draft.draftId := by
  simp only [isCompleted_execute hstatus hdraft]
  constructor
  · rintro ⟨d, hd | ⟨rfl, -⟩⟩
    · exact .inl ⟨d, hd⟩
    · exact .inr rfl
  · rintro (⟨d, hd⟩ | rfl)
    · exact ⟨d, .inl hd⟩
    · exact ⟨_, .inr ⟨rfl, rfl⟩⟩

/-- Its key is one more of the keys of the completed ones. -/
theorem exists_key_execute (hstatus : repo.transferDrafts.lookup draft.draftId = some draft)
    (hdraft : draft.status = .draft) (key : String) :
    (∃ id d, (repo.execute fmt draft acc now uuid).IsCompleted id d ∧ d.idempotencyKey = key) ↔
      (∃ id d, repo.IsCompleted id d ∧ d.idempotencyKey = key) ∨
        draft.idempotencyKey = key := by
  simp only [isCompleted_execute hstatus hdraft]
  constructor
  · rintro ⟨id, d, hd | ⟨rfl, rfl⟩, hkey⟩
    · exact .inl ⟨id, d, hd, hkey⟩
    · exact .inr hkey
  · rintro (⟨id, d, hd, hkey⟩ | hkey)
    · exact ⟨id, d, .inl hd, hkey⟩
    · exact ⟨_, _, .inr ⟨rfl, rfl⟩, hkey⟩

end BankingRepository

section Completion

variable {draft : TransferDraft} {acc : Account} {now : ℤ} {uuid : String}

/-- The account that pays is the one of the start, less what its drafts moved. -/
theorem Ledger.account_execute (h : Ledger start repo done)
    (hdraft : repo.transferDrafts.lookup draft.draftId = some draft)
    (hstatus : draft.status = .draft)
    (hacc : repo.accounts.lookup draft.sourceAccountId = some acc) (id : String) :
    (repo.execute fmt draft acc now uuid).accounts.lookup id =
      (start.accounts.lookup id).map fun acc₀ =>
        { acc₀ with balance := acc₀.balance -
          (repo.execute fmt draft acc now uuid).completedAmount id } := by
  rw [lookup_accounts_execute, completedAmount_execute hdraft hstatus]
  split
  · rename_i hid
    subst hid
    have hstart := h.account draft.sourceAccountId
    rw [hacc] at hstart
    obtain ⟨acc₀, hacc₀, hbal⟩ := Option.map_eq_some_iff.mp hstart.symm
    rw [hacc₀, Option.map_some, if_pos rfl, ← hbal]
    simp only [Option.some.injEq, Account.mk.injEq, true_and, and_true]
    exact sub_sub _ _ _
  · rename_i hid
    rw [if_neg (Ne.symm hid), add_zero]
    exact h.account id

/-- What the completed draft booked stands after what the earlier ones did. -/
theorem Ledger.entries_execute (h : Ledger start repo done) (hnew : draft.draftId ∉ done)
    (id : String) :
    ((repo.execute fmt draft acc now uuid).transactionsOf id).map Transaction.booking =
      (start.transactionsOf id).map Transaction.booking ++
        ((repo.execute fmt draft acc now uuid).draftsOf (done ++ [draft.draftId]) id).map
          TransferDraft.booking := by
  have hold : (repo.execute fmt draft acc now uuid).draftsOf done id = repo.draftsOf done id :=
    draftsOf_congr (fun id' hid' => by
      rw [lookup_execute, if_neg]
      rintro rfl
      exact hnew hid') id
  rw [bookings_execute, h.entries id, List.append_assoc, draftsOf_append, hold, List.map_append]
  by_cases hid : draft.sourceAccountId = id <;>
    simp [draftsOf_singleton, hid, Option.filter_some, TransferDraft.booking]

/-- Completing a draft keeps the ledger, with the draft as the last one done. -/
theorem Ledger.execute (h : Ledger start repo done)
    (hdraft : repo.transferDrafts.lookup draft.draftId = some draft)
    (hstatus : draft.status = .draft)
    (hacc : repo.accounts.lookup draft.sourceAccountId = some acc)
    (hkey : draft.idempotencyKey = "" ∨ draft.idempotencyKey ∉ repo.completedTransfers)
    (hfunds : draft.amount ≤ acc.balance) :
    Ledger start (repo.execute fmt draft acc now uuid) (done ++ [draft.draftId]) := by
  have hcompleted := @isCompleted_execute fmt repo draft acc now uuid hdraft hstatus
  have hnew : draft.draftId ∉ done := h.notMem_done fun d hd hc => by
    rw [← Option.some.inj (hdraft.symm.trans hd), hstatus] at hc
    cases hc
  -- the key of the draft is no key of a draft that is done already
  have hfresh : ∀ id d, repo.IsCompleted id d → d.idempotencyKey = draft.idempotencyKey →
      draft.idempotencyKey = "" := by
    intro id d hd hdk
    by_contra hne
    exact hkey.resolve_left hne ((h.keys _).mpr ⟨hne, id, d, hd, hdk⟩)
  refine ⟨h.keyed.execute, h.account_execute hdraft hstatus hacc, fun hstart id a ha => ?_, ?_,
    fun id => ?_, h.entries_execute hnew, fun key => ?_, fun id id' d d' hd hd' heq hne => ?_⟩
  · rw [lookup_accounts_execute] at ha
    split at ha
    · rw [← Option.some.inj ha]
      exact sub_nonneg.mpr hfunds
    · exact h.nonneg hstart id a ha
  · exact List.nodup_append.mpr ⟨h.nodup, List.nodup_singleton _, by
      rintro a ha b hb rfl
      exact hnew (List.mem_singleton.mp hb ▸ ha)⟩
  · rw [List.mem_append, List.mem_singleton, h.mem_done,
      exists_isCompleted_execute hdraft hstatus]
  · rw [mem_completedTransfers_execute, h.keys key, exists_key_execute hdraft hstatus, and_or_left]
  · rcases (hcompleted id d).mp hd with hd | ⟨rfl, rfl⟩ <;>
      rcases (hcompleted id' d').mp hd' with hd' | ⟨rfl, rfl⟩
    · exact h.unique id id' d d' hd hd' heq hne
    · exact absurd (heq.trans (hfresh id d hd heq)) hne
    · exact absurd (hfresh id' d' hd' heq.symm) hne
    · rfl

end Completion

end Steps

/-! ## Runs -/

section Runs

open BankingRepository

variable {fmt : TextFormat} {start repo : BankingRepository} {done : List String}

/-- **One invocation**: the ledger is kept, and the draft it completed is the last one
done. -/
theorem Ledger.exec (h : Ledger start repo done) {i : Invocation} (hfresh : i.Fresh repo) :
    Ledger start (i.exec fmt repo).2 (done ++ (i.exec fmt repo).1.completed?.toList) := by
  have heffect := i.effect fmt repo
  generalize (i.exec fmt repo).1 = r at heffect ⊢
  generalize (i.exec fmt repo).2 = repo' at heffect ⊢
  cases heffect with
  | nothing _ hr => simpa [hr] using h
  | created draft acc r htool hacc howner hcurrency hstatus hnew hr =>
    simp only [hr, Option.toList_none, List.append_nil]
    refine h.putDraft ⟨by simp [hstatus], fun old hold => ?_⟩
    rw [hnew hfresh] at hold
    cases hold
  | closed draftId draft status _ hdraft howner hopen hstatus hr =>
    simp only [hr, Option.toList_none, List.append_nil]
    exact h.putDraft (h.keyed.uncompleted hdraft (fun hc => hopen (hc ▸ trivial)) hstatus)
  | completed draftId draft acc hdraft hstatus hacc howner hkey hfunds =>
    have hid : draft.draftId = draftId := h.keyed draftId draft hdraft
    exact h.execute (hid ▸ hdraft) hstatus hacc hkey hfunds

/-- The ids of the drafts a sequence of invocations completes, in order. -/
def completions (fmt : TextFormat) : BankingRepository → List Invocation → List String
  | _, [] => []
  | repo, i :: ops =>
    (i.exec fmt repo).1.completed?.toList ++ completions fmt (i.exec fmt repo).2 ops

/-- Any sequence of invocations keeps the ledger. -/
theorem Ledger.after (h : Ledger start repo done) {ops : List Invocation}
    (hfresh : FreshIds fmt repo ops) :
    Ledger start (repo.after fmt ops) (done ++ completions fmt repo ops) := by
  induction ops generalizing repo done with
  | nil => simpa [completions, BankingRepository.after] using h
  | cons i ops ih =>
    rw [completions, ← List.append_assoc]
    exact ih (h.exec hfresh.1) hfresh.2

/-! ## What is final stays -/

/-- No invocation changes a draft whose status is final. -/
theorem Ledger.lookup_exec (h : Ledger start repo done) {i : Invocation} (hfresh : i.Fresh repo)
    {id : String} {draft : TransferDraft} (hdraft : repo.transferDrafts.lookup id = some draft)
    (hfinal : draft.status.IsFinal) :
    (i.exec fmt repo).2.transferDrafts.lookup id = some draft := by
  have hid : draft.draftId = id := h.keyed id draft hdraft
  have heffect := i.effect fmt repo
  generalize (i.exec fmt repo).1 = r at heffect ⊢
  generalize (i.exec fmt repo).2 = repo' at heffect ⊢
  cases heffect with
  | nothing _ hr => exact hdraft
  | created new acc r htool hacc howner hcurrency hstatus hnew hr =>
    rw [lookup_putDraft, if_neg]
    · exact hdraft
    · rintro rfl
      rw [hnew hfresh] at hdraft
      cases hdraft
  | closed id' old status _ hold howner hopen hstatus hr =>
    rw [lookup_putDraft, if_neg]
    · exact hdraft
    · rintro rfl
      rw [show old.draftId = id' from h.keyed id' old hold, hold] at hdraft
      exact hopen (Option.some.inj hdraft ▸ hfinal)
  | completed id' old acc hold hstatus hacc howner hkey hfunds =>
    rw [lookup_execute, if_neg]
    · exact hdraft
    · rintro rfl
      rw [show old.draftId = id' from h.keyed id' old hold, hold] at hdraft
      rw [← Option.some.inj hdraft, hstatus] at hfinal
      exact hfinal

/-- No sequence of invocations changes a draft whose status is final. -/
theorem Ledger.lookup_after (h : Ledger start repo done) {ops : List Invocation}
    (hfresh : FreshIds fmt repo ops) {id : String} {draft : TransferDraft}
    (hdraft : repo.transferDrafts.lookup id = some draft) (hfinal : draft.status.IsFinal) :
    (repo.after fmt ops).transferDrafts.lookup id = some draft := by
  induction ops generalizing repo done with
  | nil => exact hdraft
  | cons i ops ih =>
    exact ih (h.exec hfresh.1) hfresh.2 (h.lookup_exec hfresh.1 hdraft hfinal)

/-- An invocation that returns an error moves no money: balances, transactions and
completed keys are what they were. -/
theorem Invocation.unchanged_of_error {i : Invocation} {error : String}
    (herror : (i.exec fmt repo).1 = .error error) :
    (i.exec fmt repo).2.accounts = repo.accounts ∧
      (i.exec fmt repo).2.transactions = repo.transactions ∧
      (i.exec fmt repo).2.completedTransfers = repo.completedTransfers := by
  have heffect := i.effect fmt repo
  generalize (i.exec fmt repo).1 = r at heffect herror
  generalize (i.exec fmt repo).2 = repo' at heffect ⊢
  cases heffect with
  | nothing _ hr => exact ⟨rfl, rfl, rfl⟩
  | created new acc r htool hacc howner hcurrency hstatus hnew hr => exact ⟨rfl, rfl, rfl⟩
  | closed id' old status _ hold howner hopen hstatus hr => exact ⟨rfl, rfl, rfl⟩
  | completed id' old acc hold hstatus hacc howner hkey hfunds => cases herror

theorem FreshIds.append {ops ops' : List Invocation} :
    FreshIds fmt repo (ops ++ ops') ↔
      FreshIds fmt repo ops ∧ FreshIds fmt (repo.after fmt ops) ops' := by
  induction ops generalizing repo with
  | nil => simp [FreshIds, BankingRepository.after]
  | cons i ops ih =>
    rw [List.cons_append, FreshIds, FreshIds, ih, and_assoc]
    rfl

theorem BankingRepository.after_append (ops ops' : List Invocation) :
    repo.after fmt (ops ++ ops') = (repo.after fmt ops).after fmt ops' := List.foldl_append

end Runs

/-! ## Repositories as they are loaded -/

namespace BankingRepository

/-- Nothing has happened yet. -/
structure Untouched (repo : BankingRepository) : Prop where
  drafts : repo.transferDrafts = ∅
  keys : repo.completedTransfers = ∅

/-- The ledger of a repository to which nothing has happened. -/
theorem Untouched.ledger {repo : BankingRepository} (h : repo.Untouched) :
    Ledger repo repo [] where
  keyed id draft hdraft := by simp [h.drafts] at hdraft
  account id := by simp [completedAmount, AList.total, h.drafts]
  nonneg := id
  nodup := List.nodup_nil
  mem_done id := by simp [IsCompleted, h.drafts]
  entries id := by simp [draftsOf]
  keys key := by simp [IsCompleted, h.drafts, h.keys]
  unique id id' draft draft' hd := by simp [IsCompleted, h.drafts] at hd

/-- What `load_fixtures` makes of an empty repository. -/
structure Loaded (accounts : List Account) (repo : BankingRepository) : Prop extends
    repo.Untouched where
  mem_accounts : ∀ id acc, repo.accounts.lookup id = some acc → acc ∈ accounts
  transactions : ∀ id, repo.transactionsOf id = []

theorem Loaded.account {accounts : List Account} {repo : BankingRepository}
    (h : Loaded accounts repo) (a : Account) (ha : a ∈ accounts) :
    Loaded accounts (repo.loadAccount a) where
  drafts := h.drafts
  keys := h.keys
  mem_accounts id acc hacc := by
    rw [loadAccount, AList.lookup_insert_eq_ite] at hacc
    split at hacc
    · exact Option.some.inj hacc ▸ ha
    · exact h.mem_accounts id acc hacc
  transactions id := by
    have htxs := h.transactions id
    rw [transactionsOf] at htxs ⊢
    rw [loadAccount]
    cases hold : repo.transactions.lookup a.accountId with
    | some _ => exact htxs
    | none =>
      simp only [AList.lookup_insert_eq_ite]
      split
      · rfl
      · exact htxs

theorem loaded_loadFixtures (accounts : List Account) (beneficiaries : List Beneficiary) :
    Loaded accounts (new.loadFixtures accounts beneficiaries) := by
  have haccounts : ∀ (l : List Account) (repo : BankingRepository), (∀ a ∈ l, a ∈ accounts) →
      Loaded accounts repo → Loaded accounts (l.foldl loadAccount repo) := by
    intro l
    induction l with
    | nil => exact fun _ _ h => h
    | cons a l ih =>
      exact fun repo hl h => ih _ (fun b hb => hl b (List.mem_cons_of_mem a hb))
        (h.account a (hl a List.mem_cons_self))
  have hbeneficiaries : ∀ (l : List Beneficiary) (repo : BankingRepository),
      Loaded accounts repo → Loaded accounts (l.foldl loadBeneficiary repo) := by
    intro l
    induction l with
    | nil => exact fun _ h => h
    | cons b l ih => exact fun repo h => ih _ ⟨⟨h.drafts, h.keys⟩, h.mem_accounts, h.transactions⟩
  refine hbeneficiaries _ _ (haccounts _ _ (fun _ ha => ha) ⟨⟨rfl, rfl⟩, ?_, ?_⟩)
  · exact fun id acc hacc => by simp [new] at hacc
  · exact fun id => by simp [new, transactionsOf]

end BankingRepository

/-! ## The law -/

/-- The law of the ledger, for a sequence of invocations from `start`. -/
structure LedgerLaw (fmt : TextFormat) (start : BankingRepository) (ops : List Invocation) :
    Prop where
  nonneg : ∀ id acc, (start.after fmt ops).accounts.lookup id = some acc → 0 ≤ acc.balance
  /-- a balance is the initial one less what the completed drafts of the account took -/
  balance : ∀ id acc, (start.after fmt ops).accounts.lookup id = some acc →
    ∃ acc₀, start.accounts.lookup id = some acc₀ ∧
      acc.balance = acc₀.balance - (start.after fmt ops).completedAmount id
  /-- each completed draft was completed once -/
  nodup : (completions fmt start ops).Nodup
  mem_completions : ∀ id, id ∈ completions fmt start ops ↔
    ∃ draft, (start.after fmt ops).IsCompleted id draft
  /-- the transactions of an account are its completed drafts, in the order of their
  completion -/
  transactions : ∀ id, ((start.after fmt ops).transactionsOf id).map Transaction.amount =
    ((start.after fmt ops).draftsOf (completions fmt start ops) id).map fun draft => -draft.amount
  /-- a final status stays -/
  final : ∀ before rest, ops = before ++ rest → ∀ id draft,
    (start.after fmt before).transferDrafts.lookup id = some draft → draft.status.IsFinal →
      (start.after fmt ops).transferDrafts.lookup id = some draft
  /-- a key completes one draft -/
  unique : ∀ id id' draft draft', (start.after fmt ops).IsCompleted id draft →
    (start.after fmt ops).IsCompleted id' draft' →
    draft.idempotencyKey = draft'.idempotencyKey → draft.idempotencyKey ≠ "" → id = id'
  /-- an error changes no balance, no transactions and no completed key -/
  error : ∀ before i rest, ops = before ++ i :: rest → ∀ e,
    (i.exec fmt (start.after fmt before)).1 = .error e →
      (start.after fmt (before ++ [i])).accounts = (start.after fmt before).accounts ∧
      (start.after fmt (before ++ [i])).transactions = (start.after fmt before).transactions ∧
      (start.after fmt (before ++ [i])).completedTransfers =
        (start.after fmt before).completedTransfers

/-- Numbers and instants without their digits. -/
def demoFormat : TextFormat := ⟨fun _ => "n", fun _ => "t"⟩

/-- An account of `alice` with 150 dollars. -/
def demoAccounts : List Account := [{ accountId := "a", ownerId := "alice", balance := 150 }]

def demoBeneficiaries : List Beneficiary := [{ beneficiaryId := "b", name := "Bob" }]

/-- Alice drafts a transfer of 100 dollars and submits it, twice. -/
def demoTransfer : List Invocation :=
  [⟨"alice", .createTransferDraft "a" "b" 100 "USD" "k" "", 0, 0, "d"⟩,
    ⟨"alice", .submitTransfer "d", 1, 2, "t"⟩, ⟨"alice", .submitTransfer "d", 3, 4, "t'"⟩]

end BankingAgent
