import BankingAgent.Banking.Ledger

/-!
# Currencies

A draft names its currency, one of a fixed list, and submitting it takes the amount from
the account as it stands. Nothing compares the currency of the draft with that of the
account: a booking is in the currency of its draft, whatever the account is kept in.
-/

namespace BankingAgent

open BankingRepository

variable {fmt : TextFormat} {start repo : BankingRepository}

/-- The drafts of a repository satisfy a condition on account and currency. -/
def BankingRepository.DraftsIn (P : String → String → Prop) (repo : BankingRepository) : Prop :=
  ∀ id draft, repo.transferDrafts.lookup id = some draft → P draft.sourceAccountId draft.currency

/-- An invocation creates a draft only where the condition holds. -/
def Invocation.CreatesIn (P : String → String → Prop) (i : Invocation) : Prop :=
  ∀ source beneficiary amount currency key description,
    i.tool = .createTransferDraft source beneficiary amount currency key description →
      currency ∈ supportedCurrencies → P source currency

/-- A draft never changes its account and its currency. -/
theorem Invocation.draftsIn_exec {P : String → String → Prop} {i : Invocation}
    (hi : i.CreatesIn P) (h : repo.DraftsIn P) : (i.exec fmt repo).2.DraftsIn P := by
  intro id draft hdraft
  have heffect := i.effect fmt repo
  generalize (i.exec fmt repo).1 = r at heffect
  generalize (i.exec fmt repo).2 = repo' at heffect hdraft
  cases heffect with
  | nothing _ hr => exact h id draft hdraft
  | created new acc r htool hacc howner hcurrency hstatus hnew hr =>
    rw [lookup_putDraft] at hdraft
    split at hdraft
    · rw [← Option.some.inj hdraft]
      exact hi _ _ _ _ _ _ htool hcurrency
    · exact h id draft hdraft
  | closed id' old status _ hold howner hopen hstatus hr =>
    rw [lookup_putDraft] at hdraft
    split at hdraft
    · rw [← Option.some.inj hdraft]
      exact h id' old hold
    · exact h id draft hdraft
  | completed id' old acc hold hstatus hacc howner hkey hfunds =>
    rw [lookup_execute] at hdraft
    split at hdraft
    · rw [← Option.some.inj hdraft]
      exact h id' old hold
    · exact h id draft hdraft

theorem BankingRepository.draftsIn_after {P : String → String → Prop} {ops : List Invocation}
    (hops : ∀ i ∈ ops, i.CreatesIn P) (h : repo.DraftsIn P) : (repo.after fmt ops).DraftsIn P := by
  induction ops generalizing repo with
  | nil => exact h
  | cons i ops ih =>
    exact ih (fun j hj => hops j (List.mem_cons_of_mem i hj))
      (i.draftsIn_exec (hops i List.mem_cons_self) h)

/-- The currency is that of the account. -/
def IsOwnCurrency (start : BankingRepository) (accountId currency : String) : Prop :=
  ∀ acc, start.accounts.lookup accountId = some acc → currency = acc.currency

/-- What holds of the currencies after a sequence of invocations from `start`. -/
structure CurrencyLaw (fmt : TextFormat) (start : BankingRepository) (ops : List Invocation) :
    Prop where
  /-- what was posted are the completed drafts, each in its own currency -/
  bookings : ∀ id, ((start.after fmt ops).transactionsOf id).map Transaction.booking =
    (start.transactionsOf id).map Transaction.booking ++
      ((start.after fmt ops).draftsOf (completions fmt start ops) id).map TransferDraft.booking
  /-- what was subtracted are the amounts of the completed drafts -/
  balance : ∀ id acc, (start.after fmt ops).accounts.lookup id = some acc →
    ∃ acc₀, start.accounts.lookup id = some acc₀ ∧ acc.currency = acc₀.currency ∧
      acc.balance = acc₀.balance - (start.after fmt ops).completedAmount id
  /-- the currency of a draft is a supported one -/
  supported : ∀ id draft, (start.after fmt ops).transferDrafts.lookup id = some draft →
    draft.currency ∈ supportedCurrencies
  /-- and that of the account, if all drafts were created so -/
  own : (∀ i ∈ ops, i.CreatesIn (IsOwnCurrency start)) → ∀ id acc,
    (start.after fmt ops).accounts.lookup id = some acc →
      ∀ draft ∈ (start.after fmt ops).draftsOf (completions fmt start ops) id,
        draft.currency = acc.currency

/-- **Currencies**: what an account is charged and what is posted to it is in the currency
of the drafts, and in its own if the drafts were created in it. -/
theorem currency_law (fmt : TextFormat) (start : BankingRepository) (hstart : start.Untouched)
    (ops : List Invocation) (hfresh : FreshIds fmt start ops) : CurrencyLaw fmt start ops := by
  have h : Ledger start (start.after fmt ops) (completions fmt start ops) :=
    hstart.ledger.after hfresh
  have hdrafts : ∀ P : String → String → Prop, (∀ i ∈ ops, i.CreatesIn P) →
      (start.after fmt ops).DraftsIn P := fun P hops =>
    draftsIn_after hops fun id draft hdraft => by simp [hstart.drafts] at hdraft
  have haccount : ∀ id acc, (start.after fmt ops).accounts.lookup id = some acc →
      ∃ acc₀, start.accounts.lookup id = some acc₀ ∧ acc.currency = acc₀.currency ∧
        acc.balance = acc₀.balance - (start.after fmt ops).completedAmount id := by
    intro id acc hacc
    rw [h.account id] at hacc
    obtain ⟨acc₀, hacc₀, rfl⟩ := Option.map_eq_some_iff.mp hacc
    exact ⟨acc₀, hacc₀, rfl, rfl⟩
  refine ⟨h.entries, haccount, ?_, fun hown id acc hacc draft hdraft => ?_⟩
  · exact hdrafts (fun _ currency => currency ∈ supportedCurrencies)
      fun _ _ _ _ _ _ _ _ _ hcurrency => hcurrency
  · obtain ⟨acc₀, hacc₀, hcurrency, -⟩ := haccount id acc hacc
    obtain ⟨draftId, -, hfilter⟩ := List.mem_filterMap.mp hdraft
    obtain ⟨hlookup, hsource⟩ := Option.filter_eq_some_iff.mp hfilter
    rw [hcurrency]
    exact hdrafts (IsOwnCurrency start) hown draftId draft hlookup acc₀
      (by rw [of_decide_eq_true hsource]; exact hacc₀)

/-! ## Euros from a dollar account -/

/-- Alice drafts a transfer of 100 euros from her dollar account, and submits it. -/
def euroTransfer : List Invocation :=
  [⟨"alice", .createTransferDraft "a" "b" 100 "EUR" "k" "", 0, 0, "d"⟩,
    ⟨"alice", .submitTransfer "d", 1, 2, "t"⟩]

/-- She drafts a transfer of 100 dollars from it, and submits it. -/
def dollarTransfer : List Invocation :=
  [⟨"alice", .createTransferDraft "a" "b" 100 "USD" "k" "", 0, 0, "d"⟩,
    ⟨"alice", .submitTransfer "d", 1, 2, "t"⟩]

/-- The bank before that. -/
def dollarBank : BankingRepository := new.loadFixtures demoAccounts demoBeneficiaries

/-- The drafts of the account that have been completed then. -/
def dollarDrafts : List TransferDraft :=
  (dollarBank.after demoFormat dollarTransfer).draftsOf
    (completions demoFormat dollarBank dollarTransfer) "a"

theorem dollarTransfer_own : ∀ i ∈ dollarTransfer, i.CreatesIn (IsOwnCurrency dollarBank) := by
  simp only [dollarTransfer, List.forall_mem_cons]
  refine ⟨?_, ?_, nofun⟩
  · rintro source beneficiary amount currency key description htool - acc hacc
    cases htool
    obtain rfl := Option.some.inj hacc
    rfl
  · rintro source beneficiary amount currency key description ⟨⟩

/-- The transfer in dollars is in the account's own currency, and so is what is posted. -/
theorem currency_law_of_dollarTransfer :
    CurrencyLaw demoFormat dollarBank dollarTransfer ∧ dollarDrafts.length = 1 ∧
      ∀ draft ∈ dollarDrafts, draft.currency = "USD" := by
  have hlaw : CurrencyLaw demoFormat dollarBank dollarTransfer :=
    currency_law demoFormat dollarBank
      (loaded_loadFixtures demoAccounts demoBeneficiaries).toUntouched dollarTransfer
      ⟨(List.not_mem_nil : "d" ∉ []), trivial, trivial⟩
  exact ⟨hlaw, rfl, fun draft hdraft => hlaw.own dollarTransfer_own "a" _ rfl draft hdraft⟩

/-- A transaction in euros is posted to an account that is kept in dollars. -/
theorem euros_posted_to_dollars :
    ¬ ∀ (accounts : List Account) (beneficiaries : List Beneficiary) (ops : List Invocation),
      FreshIds demoFormat (new.loadFixtures accounts beneficiaries) ops → ∀ id acc,
        ((new.loadFixtures accounts beneficiaries).after demoFormat ops).accounts.lookup id =
          some acc →
        ∀ txn ∈ ((new.loadFixtures accounts beneficiaries).after demoFormat ops).transactionsOf id,
          txn.currency = acc.currency := by
  intro h
  have hcurrency : "EUR" = "USD" := h demoAccounts demoBeneficiaries euroTransfer
    ⟨(List.not_mem_nil : "d" ∉ []), trivial, trivial⟩ "a" _ rfl _ List.mem_cons_self
  exact absurd hcurrency (by decide)

end BankingAgent
