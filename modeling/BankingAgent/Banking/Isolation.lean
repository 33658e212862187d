import BankingAgent.Banking.Ledger

/-!
# Users beside each other

Whether the operations of a user change what others get to see. Accounts are guarded by
their owner, but the drafts and the completed keys are common to all: `get_transfer_status`
asks for no owner at all, `submit_transfer` and `cancel_transfer` look at the status before
they look at the owner, and a key counts as completed whoever completed it.

A run is compared with the same run without the invocations of one user `a`. The states
of the two correspond (`Without`) as long as nobody else names a draft of `a` or tries a
key that a draft of `a` has completed.
-/

namespace BankingAgent

open BankingRepository

/-- The draft a tool names. -/
def BankingTool.draftId? : BankingTool → Option String
  | .submitTransfer draftId | .cancelTransfer draftId | .getTransferStatus draftId => some draftId
  | _ => none

/-- The key an invocation looks up among the completed ones: the checks before have
passed. -/
def Invocation.testedKey? (fmt : TextFormat) (i : Invocation) (repo : BankingRepository) :
    Option String :=
  match i.tool with
  | .createTransferDraft source beneficiary amount currency key _ =>
    match repo.draftError fmt source beneficiary amount currency i.user with
    | some _ => none
    | none => some key
  | .submitTransfer draftId =>
    (repo.transferDrafts.lookup draftId).bind fun draft =>
      if draft.status = .draft ∧ repo.ownerOf draft.sourceAccountId i.user ∧
        ¬ draft.expiresAt < i.now then some draft.idempotencyKey else none
  | _ => none

/-- The invocation names a draft of `a`, or tries a key that a draft of `a` completed. -/
def Invocation.Crosses (fmt : TextFormat) (a : String) (i : Invocation)
    (repo : BankingRepository) : Prop :=
  (∃ id draft, i.tool.draftId? = some id ∧ repo.transferDrafts.lookup id = some draft ∧
    repo.ownerOf draft.sourceAccountId a = true) ∨
  ∃ key ∈ repo.completedTransfers, i.testedKey? fmt repo = some key ∧
    ∃ id draft, repo.IsCompleted id draft ∧ draft.idempotencyKey = key ∧
      repo.ownerOf draft.sourceAccountId a = true

/-- Nobody but `a` crosses in a sequence of invocations. -/
def NeverCrosses (fmt : TextFormat) (a : String) : BankingRepository → List Invocation → Prop
  | _, [] => True
  | repo, i :: ops =>
    (i.user ≠ a → ¬ i.Crosses fmt a repo) ∧ NeverCrosses fmt a (i.exec fmt repo).2 ops

/-! ## What an invocation looks at -/

/-- Two repositories agree on what an invocation looks at. -/
structure Invocation.SameFor (fmt : TextFormat) (i : Invocation) (repo view : BankingRepository) :
    Prop where
  own : ∀ id, repo.ownAccount id i.user = view.ownAccount id i.user
  /-- of other accounts, whether they exist and are active -/
  active : ∀ id, (repo.accounts.lookup id).map Account.active =
    (view.accounts.lookup id).map Account.active
  beneficiaries : repo.beneficiaries = view.beneficiaries
  transactions : ∀ id, repo.ownerOf id i.user = true →
    repo.transactionsOf id = view.transactionsOf id
  draft : ∀ id, i.tool.draftId? = some id →
    repo.transferDrafts.lookup id = view.transferDrafts.lookup id
  key : ∀ key, i.testedKey? fmt repo = some key →
    (key ∈ repo.completedTransfers ↔ key ∈ view.completedTransfers)

/-- The same happens to two repositories, with the same outcome. -/
inductive Invocation.SameStep (fmt : TextFormat) (i : Invocation) (repo view : BankingRepository) :
    ToolOutcome × BankingRepository → ToolOutcome × BankingRepository → Prop
  | nothing (r : ToolOutcome) : SameStep fmt i repo view (r, repo) (r, view)
  | put (r : ToolOutcome) (draft : TransferDraft)
      (howner : repo.ownerOf draft.sourceAccountId i.user = true)
      (hdraft : i.Fresh repo → repo.Keyed → repo.Uncompleted draft) :
      SameStep fmt i repo view (r, repo.putDraft draft) (r, view.putDraft draft)
  | execute (r : ToolOutcome) (id : String) (draft : TransferDraft) (acc : Account)
      (hdraft : repo.transferDrafts.lookup id = some draft)
      (hstatus : draft.status = .draft)
      (hacc : repo.accounts.lookup draft.sourceAccountId = some acc)
      (howner : acc.ownerId = i.user) :
      SameStep fmt i repo view (r, repo.execute fmt draft acc i.later i.uuid)
        (r, view.execute fmt draft acc i.later i.uuid)

section Same

variable {fmt : TextFormat} {i : Invocation} {repo view : BankingRepository}

theorem BankingRepository.ownerOf_eq_isSome (accountId userId : String) :
    repo.ownerOf accountId userId = (repo.ownAccount accountId userId).isSome := by
  unfold ownerOf ownAccount
  cases repo.accounts.lookup accountId with
  | none => rfl
  | some acc => by_cases h : acc.ownerId = userId <;> simp [h, Option.filter_some]

namespace Invocation.SameFor

theorem ownerOf (h : i.SameFor fmt repo view) (id : String) :
    repo.ownerOf id i.user = view.ownerOf id i.user := by
  rw [ownerOf_eq_isSome, ownerOf_eq_isSome, h.own id]

/-- The checks of `create_transfer_draft` give the same error. -/
theorem draftError (h : i.SameFor fmt repo view) (source beneficiary : String) (amount : ℚ)
    (currency : String) :
    repo.draftError fmt source beneficiary amount currency i.user =
      view.draftError fmt source beneficiary amount currency i.user := by
  have hown := h.own source
  have hactive := h.active source
  unfold ownAccount at hown
  unfold BankingRepository.draftError
  rw [← h.beneficiaries]
  cases hacc : repo.accounts.lookup source with
  | none =>
    rw [hacc, Option.map_none] at hactive
    rw [Option.map_eq_none_iff.mp hactive.symm]
  | some acc =>
    rw [hacc, Option.map_some] at hactive
    obtain ⟨acc', hacc', hact⟩ := Option.map_eq_some_iff.mp hactive.symm
    rw [hacc']
    rw [hacc, hacc', Option.filter_some, Option.filter_some] at hown
    simp only
    rw [hact]
    by_cases howner : acc.ownerId = i.user <;> by_cases howner' : acc'.ownerId = i.user
    · -- the user's own account is the same in both
      simp only [howner, howner', decide_true, if_true, Option.some.injEq] at hown
      rw [hown]
    · simp [howner, howner'] at hown
    · simp [howner, howner'] at hown
    · simp only [howner, howner', ne_eq, not_false_eq_true, if_true]

/-- A draft is created in both, or in neither. -/
theorem step_create {source beneficiary currency key description : String} {amount : ℚ}
    (h : i.SameFor fmt repo view)
    (htool : i.tool = .createTransferDraft source beneficiary amount currency key description) :
    i.SameStep fmt repo view (i.exec fmt repo) (i.exec fmt view) := by
  obtain ⟨user, tool, now, later, uuid⟩ := i
  obtain rfl : tool = _ := htool
  simp only [exec, BankingRepository.createTransferDraft]
  rw [← h.draftError]
  have hkey := h.key key
  simp only [testedKey?] at hkey
  cases herror : repo.draftError fmt source beneficiary amount currency user with
  | some error => exact .nothing _
  | none =>
    rw [herror] at hkey
    obtain ⟨acc, hacc, howner, -⟩ := of_draftError_eq_none herror
    by_cases hmem : key ∈ repo.completedTransfers
    · simp only [if_pos hmem, if_pos ((hkey rfl).mp hmem)]
      exact .nothing _
    · simp only [if_neg hmem, if_neg fun hv => hmem ((hkey rfl).mpr hv)]
      refine .put _ _ (ownerOf_eq_true_iff.mpr ⟨acc, hacc, howner⟩) fun hfresh _ =>
        ⟨TransferStatus.noConfusion, fun old hold => ?_⟩
      rw [AList.lookup_eq_none.mpr (show uuid ∉ repo.transferDrafts from hfresh)] at hold
      cases hold

/-- A draft is cancelled in both, or in neither. -/
theorem step_cancel {draftId : String} (h : i.SameFor fmt repo view)
    (htool : i.tool = .cancelTransfer draftId) :
    i.SameStep fmt repo view (i.exec fmt repo) (i.exec fmt view) := by
  obtain ⟨user, tool, now, later, uuid⟩ := i
  obtain rfl : tool = _ := htool
  simp only [exec, BankingRepository.cancelTransfer]
  rw [← h.draft draftId rfl]
  cases hdraft : repo.transferDrafts.lookup draftId with
  | none => exact .nothing _
  | some draft =>
    simp only
    rw [← h.ownerOf draft.sourceAccountId]
    cases howner : repo.ownerOf draft.sourceAccountId user with
    | false => split <;> exact .nothing _
    | true =>
      split
      · exact .nothing _
      · rename_i hopen
        refine .put _ _ howner fun _ hkeyed => hkeyed.uncompleted hdraft ?_ (by decide)
        intro hc
        exact hopen ⟨by rw [hc]; decide, by rw [hc]; decide⟩

/-- A draft is submitted in both, or in neither. -/
theorem step_submit {draftId : String} (h : i.SameFor fmt repo view)
    (htool : i.tool = .submitTransfer draftId) :
    i.SameStep fmt repo view (i.exec fmt repo) (i.exec fmt view) := by
  obtain ⟨user, tool, now, later, uuid⟩ := i
  obtain rfl : tool = _ := htool
  simp only [exec, BankingRepository.submitTransfer]
  rw [← h.draft draftId rfl]
  have hkey := h.key
  simp only [testedKey?] at hkey
  cases hdraft : repo.transferDrafts.lookup draftId with
  | none => exact .nothing _
  | some draft =>
    simp only
    rw [← h.own draft.sourceAccountId]
    rw [hdraft, Option.bind_some] at hkey
    by_cases hstatus : draft.status = .draft
    · rw [if_neg (not_not.mpr hstatus), if_neg (not_not.mpr hstatus)]
      cases hown : repo.ownAccount draft.sourceAccountId user with
      | none => exact .nothing _
      | some acc =>
        obtain ⟨hacc, howner⟩ := ownAccount_eq_some_iff.mp hown
        have howned : repo.ownerOf draft.sourceAccountId user = true :=
          ownerOf_eq_true_iff.mpr ⟨acc, hacc, howner⟩
        simp only
        by_cases hexpired : draft.expiresAt < now
        · rw [if_pos hexpired, if_pos hexpired]
          exact .put _ _ howned fun _ hkeyed =>
            hkeyed.uncompleted hdraft (by rw [hstatus]; decide) (by decide)
        · rw [if_neg hexpired, if_neg hexpired]
          rw [if_pos ⟨hstatus, howned, hexpired⟩] at hkey
          simp only [hkey draft.idempotencyKey rfl]
          split
          · exact .nothing _
          · split
            · exact .nothing _
            · exact .execute _ draftId draft acc hdraft hstatus hacc howner
    · rw [if_pos hstatus, if_pos hstatus]
      exact .nothing _

/-- **What an invocation looks at** decides what it does. -/
theorem step (h : i.SameFor fmt repo view) :
    i.SameStep fmt repo view (i.exec fmt repo) (i.exec fmt view) := by
  obtain ⟨user, tool, now, later, uuid⟩ := i
  cases tool with
  | getAccountSummary accountId =>
    have htxs := h.transactions accountId
    rw [ownerOf_eq_isSome] at htxs
    simp only [exec]
    rw [← h.own accountId, ← h.beneficiaries]
    cases hown : repo.ownAccount accountId user with
    | none => exact .nothing _
    | some acc =>
      rw [← htxs (by rw [hown]; rfl)]
      exact .nothing _
  | getBalance accountId =>
    simp only [exec]
    rw [← h.own accountId]
    cases repo.ownAccount accountId user <;> exact .nothing _
  | listTransactions accountId limit =>
    simp only [exec, BankingRepository.listTransactions]
    rw [← h.ownerOf accountId]
    cases hown : repo.ownerOf accountId user with
    | false => exact .nothing _
    | true =>
      rw [← h.transactions accountId hown]
      exact .nothing _
  | findBeneficiary beneficiaryId =>
    simp only [exec]
    rw [← h.beneficiaries]
    split <;> exact .nothing _
  | reportSuspiciousTransaction accountId transactionId reason => exact .nothing _
  | getTransferStatus draftId =>
    simp only [exec]
    rw [← h.draft draftId rfl]
    split <;> exact .nothing _
  | createTransferDraft source beneficiary amount currency key description => exact h.step_create rfl
  | cancelTransfer draftId => exact h.step_cancel rfl
  | submitTransfer draftId => exact h.step_submit rfl

end Invocation.SameFor

end Same

/-! ## A run without the invocations of a user -/

/-- `view` is `repo` without what `a` did. -/
structure Without (a : String) (repo view : BankingRepository) : Prop where
  /-- accounts of `a` may have another balance -/
  account : ∀ id, view.accounts.lookup id = repo.accounts.lookup id ∨
    ∃ acc acc', repo.accounts.lookup id = some acc ∧ view.accounts.lookup id = some acc' ∧
      acc.ownerId = a ∧ acc'.ownerId = a ∧ acc.active = acc'.active
  beneficiaries : repo.beneficiaries = view.beneficiaries
  transactions : ∀ id, repo.ownerOf id a = false → repo.transactionsOf id = view.transactionsOf id
  /-- there are no drafts of `a` -/
  drafts : ∀ id, view.transferDrafts.lookup id =
    (repo.transferDrafts.lookup id).filter fun draft => !repo.ownerOf draft.sourceAccountId a
  key_of : ∀ key ∈ view.completedTransfers, key ∈ repo.completedTransfers
  /-- the keys that are missing are those of drafts of `a` -/
  key : ∀ key ∈ repo.completedTransfers, key ∈ view.completedTransfers ∨
    ∃ id draft, repo.IsCompleted id draft ∧ draft.idempotencyKey = key ∧
      repo.ownerOf draft.sourceAccountId a = true

section Without

variable {fmt : TextFormat} {a : String} {i : Invocation} {start repo view : BankingRepository}
  {done : List String}

theorem BankingRepository.ownerOf_eq_false {id user : String} {acc : Account}
    (hacc : repo.accounts.lookup id = some acc) (hne : acc.ownerId ≠ user) :
    repo.ownerOf id user = false := by
  rw [ownerOf]
  rw [hacc]
  exact decide_eq_false hne

/-- An account of one user is not that of another. -/
theorem BankingRepository.ownerOf_eq_false_of_ne {id user user' : String}
    (h : repo.ownerOf id user = true) (hne : user ≠ user') : repo.ownerOf id user' = false := by
  obtain ⟨acc, hacc, howner⟩ := ownerOf_eq_true_iff.mp h
  exact ownerOf_eq_false hacc (howner ▸ hne)

@[simp] theorem BankingRepository.ownerOf_putDraft (draft : TransferDraft) (id user : String) :
    (repo.putDraft draft).ownerOf id user = repo.ownerOf id user := rfl

/-- Who owns an account never changes. -/
theorem BankingRepository.ownerOf_execute {draft : TransferDraft} {acc : Account} {now : ℤ}
    {uuid : String} (hacc : repo.accounts.lookup draft.sourceAccountId = some acc)
    (id user : String) :
    (repo.execute fmt draft acc now uuid).ownerOf id user = repo.ownerOf id user := by
  unfold ownerOf
  rw [lookup_accounts_execute]
  by_cases hid : id = draft.sourceAccountId
  · rw [if_pos hid, hid, hacc]
  · rw [if_neg hid]

theorem BankingRepository.transactionsOf_execute {draft : TransferDraft} {acc : Account} {now : ℤ}
    {uuid : String} {id : String} (hne : id ≠ draft.sourceAccountId) :
    (repo.execute fmt draft acc now uuid).transactionsOf id = repo.transactionsOf id := by
  rw [execute]
  rw [transactionsOf]
  simp only [AList.lookup_insert_eq_ite, if_neg hne]
  rfl

namespace Without

theorem refl (hstart : start.Untouched) : Without a start start where
  account _ := .inl rfl
  beneficiaries := rfl
  transactions _ _ := rfl
  drafts id := by simp [hstart.drafts]
  key_of _ h := h
  key _ h := .inl h

/-- An invocation of another user that does not cross sees no difference. -/
theorem sameFor (h : Without a repo view) (hne : i.user ≠ a) (hi : ¬ i.Crosses fmt a repo) :
    i.SameFor fmt repo view where
  own id := by
    unfold ownAccount
    rcases h.account id with heq | ⟨acc, acc', hacc, hacc', ho, ho', -⟩
    · rw [heq]
    · rw [hacc, hacc', Option.filter_some, Option.filter_some, ho, ho']
      simp [hne.symm]
  active id := by
    rcases h.account id with heq | ⟨acc, acc', hacc, hacc', -, -, hact⟩
    · rw [heq]
    · rw [hacc, hacc', Option.map_some, Option.map_some, hact]
  beneficiaries := h.beneficiaries
  transactions id hown := h.transactions id (ownerOf_eq_false_of_ne hown hne)
  draft id hid := by
    rw [h.drafts id]
    cases hdraft : repo.transferDrafts.lookup id with
    | none => rfl
    | some draft =>
      cases hown : repo.ownerOf draft.sourceAccountId a with
      | true => exact absurd (.inl ⟨id, draft, hid, hdraft, hown⟩) hi
      | false => simp [Option.filter_some, hown]
  key key hkey := by
    refine ⟨fun hmem => ?_, h.key_of key⟩
    exact (h.key key hmem).resolve_right fun hother => hi (.inr ⟨key, hmem, hkey, hother⟩)

/-- Another user writes a draft. -/
theorem put (h : Without a repo view) {draft : TransferDraft}
    (hown : repo.ownerOf draft.sourceAccountId a = false) (hdraft : repo.Uncompleted draft) :
    Without a (repo.putDraft draft) (view.putDraft draft) where
  account := h.account
  beneficiaries := h.beneficiaries
  transactions := h.transactions
  drafts id := by
    rw [lookup_putDraft, lookup_putDraft]
    split
    · rw [Option.filter_some, if_pos (by simpa using hown)]
    · exact h.drafts id
  key_of := h.key_of
  key key hkey := by
    rcases h.key key hkey with hview | ⟨id, d, hd, hdk, hda⟩
    · exact .inl hview
    · exact .inr ⟨id, d, (isCompleted_putDraft hdraft id d).mpr hd, hdk, hda⟩

/-- `a` writes a draft. -/
theorem put_hidden (h : Without a repo view) {draft : TransferDraft}
    (hown : repo.ownerOf draft.sourceAccountId a = true) (hdraft : repo.Uncompleted draft)
    (hold : ∀ old, repo.transferDrafts.lookup draft.draftId = some old →
      old.sourceAccountId = draft.sourceAccountId) :
    Without a (repo.putDraft draft) view where
  account := h.account
  beneficiaries := h.beneficiaries
  transactions := h.transactions
  drafts id := by
    rw [h.drafts id, lookup_putDraft]
    split
    · rename_i hid
      rw [Option.filter_some, if_neg (by simpa using hown), Option.filter_eq_none_iff]
      intro old hlookup
      rw [hold old (hid ▸ hlookup)]
      simpa using hown
    · rfl
  key_of := h.key_of
  key key hkey := by
    rcases h.key key hkey with hview | ⟨id, d, hd, hdk, hda⟩
    · exact .inl hview
    · exact .inr ⟨id, d, (isCompleted_putDraft hdraft id d).mpr hd, hdk, hda⟩

/-- Another user completes a draft. -/
theorem execute (h : Without a repo view) {draft : TransferDraft} {acc : Account} {now : ℤ}
    {uuid : String} (hdraft : repo.transferDrafts.lookup draft.draftId = some draft)
    (hstatus : draft.status = .draft)
    (hacc : repo.accounts.lookup draft.sourceAccountId = some acc) (hne : acc.ownerId ≠ a) :
    Without a (repo.execute fmt draft acc now uuid) (view.execute fmt draft acc now uuid) where
  account id := by
    rw [lookup_accounts_execute, lookup_accounts_execute]
    split
    · exact .inl rfl
    · exact h.account id
  beneficiaries := h.beneficiaries
  transactions id hown := by
    rw [ownerOf_execute hacc] at hown
    by_cases hid : id = draft.sourceAccountId
    · simp only [BankingRepository.execute, transactionsOf, AList.lookup_insert_eq_ite, if_pos hid]
      have htxs := h.transactions draft.sourceAccountId (hid ▸ hown)
      simp only [transactionsOf] at htxs
      rw [htxs]
    · rw [transactionsOf_execute hid, transactionsOf_execute hid]
      exact h.transactions id hown
  drafts id := by
    rw [lookup_execute, lookup_execute]
    simp only [ownerOf_execute hacc]
    split
    · rw [Option.filter_some, if_pos (by simpa using ownerOf_eq_false hacc hne)]
    · exact h.drafts id
  key_of key hkey := by
    rw [mem_completedTransfers_execute] at hkey ⊢
    exact hkey.imp_left (h.key_of key)
  key key hkey := by
    rw [mem_completedTransfers_execute] at hkey ⊢
    rcases hkey with hkey | hkey
    · rcases h.key key hkey with hview | ⟨id, d, hd, hdk, hda⟩
      · exact .inl (.inl hview)
      · exact .inr ⟨id, d, (isCompleted_execute hdraft hstatus id d).mpr (.inl hd), hdk,
          (ownerOf_execute hacc _ _).trans hda⟩
    · exact .inl (.inr hkey)

/-- `a` completes a draft. -/
theorem execute_hidden (h : Without a repo view) {draft : TransferDraft} {acc : Account} {now : ℤ}
    {uuid : String} (hdraft : repo.transferDrafts.lookup draft.draftId = some draft)
    (hstatus : draft.status = .draft)
    (hacc : repo.accounts.lookup draft.sourceAccountId = some acc) (howner : acc.ownerId = a) :
    Without a (repo.execute fmt draft acc now uuid) view where
  account id := by
    rw [lookup_accounts_execute]
    split
    · rename_i hid
      subst hid
      refine .inr ?_
      rcases h.account draft.sourceAccountId with heq | ⟨old, acc', hold, hacc', -, ho', hact⟩
      · exact ⟨_, acc, rfl, heq.trans hacc, howner, howner, rfl⟩
      · rw [hacc] at hold
        exact ⟨_, acc', rfl, hacc', howner, ho', Option.some.inj hold ▸ hact⟩
    · exact h.account id
  beneficiaries := h.beneficiaries
  transactions id hown := by
    rw [ownerOf_execute hacc] at hown
    rw [transactionsOf_execute]
    · exact h.transactions id hown
    · rintro rfl
      rw [ownerOf_eq_true_iff.mpr ⟨acc, hacc, howner⟩] at hown
      cases hown
  drafts id := by
    have hown : repo.ownerOf draft.sourceAccountId a = true :=
      ownerOf_eq_true_iff.mpr ⟨acc, hacc, howner⟩
    rw [h.drafts id, lookup_execute]
    simp only [ownerOf_execute hacc]
    split
    · rename_i hid
      rw [hid, hdraft, Option.filter_some, Option.filter_some, if_neg (by simpa using hown),
        if_neg (by simpa using hown)]
    · rfl
  key_of key hkey := mem_completedTransfers_execute.mpr (.inl (h.key_of key hkey))
  key key hkey := by
    have hcompleted := @isCompleted_execute fmt repo draft acc now uuid hdraft hstatus
    rcases mem_completedTransfers_execute.mp hkey with hkey | ⟨-, hdk⟩
    · rcases h.key key hkey with hview | ⟨id, d, hd, hdk, hda⟩
      · exact .inl hview
      · exact .inr ⟨id, d, (hcompleted id d).mpr (.inl hd), hdk,
          (ownerOf_execute hacc _ _).trans hda⟩
    · exact .inr ⟨_, _, (hcompleted _ _).mpr (.inr ⟨rfl, rfl⟩), hdk,
        (ownerOf_execute hacc _ _).trans (ownerOf_eq_true_iff.mpr ⟨acc, hacc, howner⟩)⟩

/-- **One invocation of `a`** changes nothing for the others. -/
theorem exec_hidden (h : Without a repo view) (hledger : Ledger start repo done)
    (hfresh : i.Fresh repo) (huser : i.user = a) : Without a (i.exec fmt repo).2 view := by
  subst huser
  have heffect := i.effect fmt repo
  generalize (i.exec fmt repo).1 = r at heffect
  generalize (i.exec fmt repo).2 = repo' at heffect ⊢
  cases heffect with
  | nothing _ hr => exact h
  | created draft acc r htool hacc howner hcurrency hstatus hnew hr =>
    have hnone := hnew hfresh
    refine h.put_hidden (ownerOf_eq_true_iff.mpr ⟨acc, hacc, howner⟩)
      ⟨by simp [hstatus], fun old hold => ?_⟩ fun old hold => ?_
    all_goals
      rw [hnone] at hold
      cases hold
  | closed id draft status _ hdraft howner hopen hstatus hr =>
    have hid : draft.draftId = id := hledger.keyed id draft hdraft
    have huncompleted : repo.Uncompleted { draft with status } :=
      hledger.keyed.uncompleted hdraft (fun hc => hopen (hc ▸ trivial)) hstatus
    refine h.put_hidden howner huncompleted fun old hold => ?_
    rw [show old = draft from Option.some.inj (hold.symm.trans (hid ▸ hdraft))]
  | completed id draft acc hdraft hstatus hacc howner hkey hfunds =>
    have hid : draft.draftId = id := hledger.keyed id draft hdraft
    exact h.execute_hidden (hid ▸ hdraft) hstatus hacc howner

/-- **One invocation of another user** has the same outcome in both. -/
theorem exec_other (h : Without a repo view) (hledger : Ledger start repo done)
    (hfresh : i.Fresh repo) (hne : i.user ≠ a) (hi : ¬ i.Crosses fmt a repo) :
    (i.exec fmt repo).1 = (i.exec fmt view).1 ∧
      Without a (i.exec fmt repo).2 (i.exec fmt view).2 := by
  have hstep := (h.sameFor hne hi).step
  generalize i.exec fmt repo = result at hstep ⊢
  generalize i.exec fmt view = result' at hstep ⊢
  cases hstep with
  | nothing r => exact ⟨rfl, h⟩
  | put r draft howner hdraft =>
    exact ⟨rfl, h.put (ownerOf_eq_false_of_ne howner hne) (hdraft hfresh hledger.keyed)⟩
  | execute r id draft acc hdraft hstatus hacc howner =>
    have hid : draft.draftId = id := hledger.keyed id draft hdraft
    exact ⟨rfl, h.execute (hid ▸ hdraft) hstatus hacc (howner ▸ hne)⟩

end Without

end Without

/-! ## Independence -/

/-- What the invocations of a user return, in order. -/
def outcomes (fmt : TextFormat) (user : String) : BankingRepository → List Invocation →
    List ToolOutcome
  | _, [] => []
  | repo, i :: ops =>
    if i.user = user then (i.exec fmt repo).1 :: outcomes fmt user (i.exec fmt repo).2 ops
    else outcomes fmt user (i.exec fmt repo).2 ops

/-- `view` is `repo` with other statuses and amounts of drafts of `a`. -/
structure OtherDraftsOf (a : String) (repo view : BankingRepository) : Prop where
  accounts : repo.accounts = view.accounts
  beneficiaries : repo.beneficiaries = view.beneficiaries
  transactions : repo.transactions = view.transactions
  completedTransfers : repo.completedTransfers = view.completedTransfers
  drafts : ∀ id, repo.transferDrafts.lookup id = view.transferDrafts.lookup id ∨
    ∃ (draft : TransferDraft) (status : TransferStatus) (amount : ℚ),
      repo.transferDrafts.lookup id = some draft ∧
      repo.ownerOf draft.sourceAccountId a = true ∧
      view.transferDrafts.lookup id = some { draft with status, amount }

/-- The outcome depends on the status or the amount of a draft of `a`. -/
def Invocation.Discloses (fmt : TextFormat) (a : String) (i : Invocation)
    (repo : BankingRepository) : Prop :=
  ∃ view, OtherDraftsOf a repo view ∧ (i.exec fmt view).1 ≠ (i.exec fmt repo).1

/-- No outcome of an invocation of `b` discloses the status or the amount of a draft of
`a`. -/
def NeverDiscloses (fmt : TextFormat) (a b : String) : BankingRepository → List Invocation → Prop
  | _, [] => True
  | repo, i :: ops =>
    (i.user = b → ¬ i.Discloses fmt a repo) ∧ NeverDiscloses fmt a b (i.exec fmt repo).2 ops

/-- `b` notices nothing of `a`. -/
structure Independent (fmt : TextFormat) (a b : String) (start : BankingRepository)
    (ops : List Invocation) : Prop where
  /-- without the invocations of `a`, those of `b` return the same -/
  outcomes : outcomes fmt b start ops = outcomes fmt b start (ops.filter fun i => i.user ≠ a)
  /-- and none shows status or amount of a draft of `a` -/
  discloses : NeverDiscloses fmt a b start ops

section Independence

variable {fmt : TextFormat} {a b : String} {i : Invocation} {start repo view : BankingRepository}
  {done : List String} {ops : List Invocation}

/-- An invocation that does not cross returns the same, whatever the drafts of `a` are. -/
theorem Invocation.not_discloses (hi : ¬ i.Crosses fmt a repo) :
    ¬ i.Discloses fmt a repo := by
  rintro ⟨view, h, hdiff⟩
  have hsame : i.SameFor fmt repo view :=
    { own id := by rw [ownAccount, ownAccount, h.accounts]
      active id := by rw [h.accounts]
      beneficiaries := h.beneficiaries
      transactions id _ := by rw [transactionsOf, transactionsOf, h.transactions]
      draft id hid := by
        refine (h.drafts id).resolve_right ?_
        rintro ⟨draft, status, amount, hdraft, hown, -⟩
        exact hi (.inl ⟨id, draft, hid, hdraft, hown⟩)
      key key _ := by rw [h.completedTransfers] }
  have hstep := hsame.step
  generalize i.exec fmt repo = result at hstep hdiff
  generalize i.exec fmt view = result' at hstep hdiff
  cases hstep with
  | nothing r => exact hdiff rfl
  | put r draft howner hdraft => exact hdiff rfl
  | execute r id draft acc hdraft hstatus hacc howner => exact hdiff rfl

theorem NeverCrosses.neverDiscloses (hab : a ≠ b) (h : NeverCrosses fmt a repo ops) :
    NeverDiscloses fmt a b repo ops := by
  induction ops generalizing repo with
  | nil => trivial
  | cons i ops ih =>
    refine ⟨fun huser => ?_, ih h.2⟩
    exact Invocation.not_discloses (h.1 (huser ▸ hab.symm))

/-- **A run and the run without `a`** return the same to everybody else. -/
theorem Without.outcomes_eq (hab : a ≠ b) (h : Without a repo view)
    (hledger : Ledger start repo done) (hfresh : FreshIds fmt repo ops)
    (hcross : NeverCrosses fmt a repo ops) :
    outcomes fmt b repo ops = outcomes fmt b view (ops.filter fun i => i.user ≠ a) := by
  induction ops generalizing repo view done with
  | nil => rfl
  | cons i ops ih =>
    have hnext : Ledger start (i.exec fmt repo).2 _ := hledger.exec hfresh.1
    by_cases huser : i.user = a
    · -- an invocation of `a`: the other run stands still
      rw [outcomes, if_neg (huser ▸ hab), List.filter_cons_of_neg (by simpa using huser)]
      exact ih (h.exec_hidden hledger hfresh.1 huser) hnext hfresh.2 hcross.2
    · obtain ⟨hout, hwithout⟩ := h.exec_other hledger hfresh.1 huser (hcross.1 huser)
      rw [List.filter_cons_of_pos (by simpa using huser), outcomes, outcomes, hout,
        ih hwithout hnext hfresh.2 hcross.2]

end Independence

/-- **Users beside each other**: in every run in which nobody but `a` names a draft of `a`
or tries a key that a draft of `a` has completed, `b` notices nothing of `a`. -/
theorem users_independent (fmt : TextFormat) (start : BankingRepository)
    (hstart : start.Untouched) (a b : String) (hab : a ≠ b) (ops : List Invocation)
    (hfresh : FreshIds fmt start ops) (hcross : NeverCrosses fmt a start ops) :
    Independent fmt a b start ops where
  outcomes := (Without.refl hstart).outcomes_eq hab hstart.ledger hfresh hcross
  discloses := hcross.neverDiscloses hab

/-! ## A look at somebody else's draft -/

/-- Alice's account. Bob has none. -/
def aliceOnly : BankingRepository := new.loadFixtures demoAccounts demoBeneficiaries

/-- Alice drafts a transfer, Bob asks for its status. -/
def askForStatus : List Invocation :=
  [⟨"alice", .createTransferDraft "a" "b" 100 "USD" "k" "", 0, 0, "d"⟩,
    ⟨"bob", .getTransferStatus "d", 1, 1, "u"⟩]

theorem untouched_aliceOnly : aliceOnly.Untouched :=
  (loaded_loadFixtures demoAccounts demoBeneficiaries).toUntouched

/-- Alice drafts a transfer, Bob asks for his balance. -/
theorem users_independent_in_run :
    Independent demoFormat "alice" "bob" aliceOnly
      [⟨"alice", .createTransferDraft "a" "b" 100 "USD" "k" "", 0, 0, "d"⟩,
        ⟨"bob", .getBalance "a", 1, 1, "u"⟩] := by
  refine users_independent demoFormat aliceOnly untouched_aliceOnly "alice" "bob" (by decide) _
    ⟨(List.not_mem_nil : "d" ∉ []), trivial, trivial⟩ ⟨fun h => absurd rfl h, fun _ => ?_, trivial⟩
  rintro (⟨id, draft, hid, -⟩ | ⟨key, -, hkey, -⟩)
  · cases hid
  · cases hkey

/-- Bob is told the status and the amount, and without Alice's invocation he is not. -/
theorem status_crosses_users :
    ¬ ∀ (start : BankingRepository) (a b : String) (ops : List Invocation), start.Untouched →
      a ≠ b → FreshIds demoFormat start ops → Independent demoFormat a b start ops := by
  intro h
  have hindependent := h aliceOnly "alice" "bob" askForStatus untouched_aliceOnly (by decide)
    ⟨(List.not_mem_nil : "d" ∉ []), trivial, trivial⟩
  have hout : [Except.ok (BankingReply.transferStatus "d" .draft 100)] =
      [Except.error "Transfer draft not found"] := hindependent.outcomes
  cases hout

end BankingAgent
