import BankingAgent.Recording
import Mathlib.Data.List.AList
import Mathlib.Data.List.DropRight
import Mathlib.Data.Set.Function

/-!
# `memory/`: preferences

The store keeps a list of preferences for every user of every tenant, without the sensitive
ones, and forgets the oldest when a list is full. It finds a list under one string, the tenant
and the user joined by a colon.

* `answers_own_iff` — over histories of some users, every user is answered with the last of what
  was saved for them and nobody else, exactly if no two of these users are joined to the same
  string.
* `prefKey_injOn` — that is so where no tenant has a colon in its name.
-/

namespace BankingAgent

/-! ## The model -/

/-- `UserPreference`. -/
structure UserPreference : Type where
  key : String
  value : String
  userId : String
  tenantId : String
  createdAt : String
  ttlDays : ℤ
  deriving DecidableEq

/-- `MemoryPolicy`, as far as the store reads it: a list has room for a preference. -/
structure MemoryPolicy : Type where
  maxPreferencesPerUser : ℕ
  pos : 0 < maxPreferencesPerUser

/-- `InMemoryMemoryStore`, without the episodes. -/
structure InMemoryMemoryStore : Type where
  preferences : AList fun _ : String => List UserPreference
  policy : MemoryPolicy

/-- `is_sensitive_key`. -/
def UserPreference.isSensitiveKey (py : PyLib) (pref : UserPreference) : Bool :=
  ["account_number", "password", "pin", "ssn", "token", "secret"].contains (py.lower pref.key)

/-- `_pref_key`, of a user and a tenant. -/
def prefKey (owner : String × String) : String := owner.2 ++ ":" ++ owner.1

/-- The user and the tenant of a preference. -/
def UserPreference.owner (pref : UserPreference) : String × String := (pref.userId, pref.tenantId)

namespace InMemoryMemoryStore

variable (py : PyLib) (store : InMemoryMemoryStore)

/-- The list under a string. -/
def listAt (key : String) : List UserPreference := (store.preferences.lookup key).getD []

/-- `save_preference`. -/
def savePreference (pref : UserPreference) : Bool × InMemoryMemoryStore :=
  if pref.isSensitiveKey py then (false, store)
  else
    let existing := store.listAt (prefKey pref.owner)
    let kept := if store.policy.maxPreferencesPerUser ≤ existing.length then existing.tail
      else existing
    (true,
      { store with preferences := store.preferences.insert (prefKey pref.owner) (kept ++ [pref]) })

/-- `get_preferences`. -/
def getPreferences (owner : String × String) : List UserPreference := store.listAt (prefKey owner)

/-- `delete_preferences`. -/
def deletePreferences (owner : String × String) : InMemoryMemoryStore :=
  { store with preferences := store.preferences.erase (prefKey owner) }

end InMemoryMemoryStore

/-- A call of the store. -/
inductive MemoryOp : Type where
  | savePreference (pref : UserPreference)
  | deletePreferences (owner : String × String)
  | getPreferences (owner : String × String)

/-- Whom the call is about. -/
def MemoryOp.owner : MemoryOp → String × String
  | savePreference pref => pref.owner
  | deletePreferences owner => owner
  | getPreferences owner => owner

section Model

variable (py : PyLib)

/-- The store after one call. -/
def MemoryOp.exec (store : InMemoryMemoryStore) : MemoryOp → InMemoryMemoryStore
  | savePreference pref => (store.savePreference py pref).2
  | deletePreferences owner => store.deletePreferences owner
  | getPreferences _ => store

/-- The store after a history. -/
def InMemoryMemoryStore.after (store : InMemoryMemoryStore) (ops : List MemoryOp) :
    InMemoryMemoryStore :=
  ops.foldl (MemoryOp.exec py) store

/-- A store without preferences. -/
def InMemoryMemoryStore.new (policy : MemoryPolicy) : InMemoryMemoryStore := ⟨∅, policy⟩

/-! ## What the store is for -/

/-- What a call makes of the preferences of one owner. -/
def MemoryOp.remember (owner : String × String) (saved : List UserPreference) :
    MemoryOp → List UserPreference
  | savePreference pref =>
    if pref.owner = owner ∧ pref.isSensitiveKey py = false then saved ++ [pref] else saved
  | deletePreferences other => if other = owner then [] else saved
  | getPreferences _ => saved

/-- What was saved for an owner since it was last deleted. -/
def savedFor (owner : String × String) (ops : List MemoryOp) : List UserPreference :=
  ops.foldl (MemoryOp.remember py owner) []

/-- After every history of these owners, each of them is answered with the last of what was
saved for them. -/
def AnswersOwn (policy : MemoryPolicy) (owners : Set (String × String)) : Prop :=
  ∀ ops : List MemoryOp, (∀ o ∈ ops, o.owner ∈ owners) → ∀ owner ∈ owners,
    ((InMemoryMemoryStore.new policy).after py ops).getPreferences owner =
      (savedFor py owner ops).rtake policy.maxPreferencesPerUser

end Model

/-! ## Bounded lists -/

/-- The last `n` of a list that grows: it loses its first when it is full. -/
theorem rtake_append_singleton {α : Type} {n : ℕ} (hn : 0 < n) (l : List α) (a : α) :
    (l ++ [a]).rtake n =
      (if n ≤ (l.rtake n).length then (l.rtake n).tail else l.rtake n) ++ [a] := by
  obtain ⟨n, rfl⟩ : ∃ k, n = k + 1 := ⟨n - 1, by omega⟩
  rw [List.rtake_concat_succ]
  have hlen : (l.rtake (n + 1)).length = l.length - (l.length - (n + 1)) := List.length_drop
  congr 1
  split
  · rename_i hfull
    rw [List.rtake, List.rtake, List.tail_drop]
    congr 1
    omega
  · rename_i hfree
    rw [List.rtake, List.rtake, Nat.sub_eq_zero_of_le (by omega : l.length ≤ n),
      Nat.sub_eq_zero_of_le (by omega : l.length ≤ n + 1)]

/-! ## The simulation -/

section Simulation

variable {py : PyLib} {policy : MemoryPolicy} {owners : Set (String × String)}
  {store : InMemoryMemoryStore} {owner : String × String} {o : MemoryOp} {ops : List MemoryOp}

@[simp] theorem policy_exec : (o.exec py store).policy = store.policy := by
  cases o with
  | savePreference pref =>
    simp only [MemoryOp.exec, InMemoryMemoryStore.savePreference]
    split <;> rfl
  | deletePreferences other => rfl
  | getPreferences other => rfl

/-! ### One list -/

section ListAt

variable {pref : UserPreference} {key : String}

theorem savePreference_of_sensitive (h : pref.isSensitiveKey py = true) :
    (store.savePreference py pref).2 = store := by
  rw [InMemoryMemoryStore.savePreference, if_pos h]

theorem listAt_savePreference_self (h : pref.isSensitiveKey py = false) :
    (store.savePreference py pref).2.listAt (prefKey pref.owner) =
      (if store.policy.maxPreferencesPerUser ≤ (store.listAt (prefKey pref.owner)).length then
        (store.listAt (prefKey pref.owner)).tail else store.listAt (prefKey pref.owner)) ++
          [pref] := by
  rw [InMemoryMemoryStore.savePreference, if_neg (by simp [h]), InMemoryMemoryStore.listAt,
    AList.lookup_insert, Option.getD_some]

theorem listAt_savePreference_of_ne (h : key ≠ prefKey pref.owner) :
    (store.savePreference py pref).2.listAt key = store.listAt key := by
  rw [InMemoryMemoryStore.savePreference]
  split
  · rfl
  · rw [InMemoryMemoryStore.listAt, AList.lookup_insert_ne h]
    rfl

theorem listAt_deletePreferences_self (owner : String × String) :
    (store.deletePreferences owner).listAt (prefKey owner) = [] := by
  rw [InMemoryMemoryStore.listAt, InMemoryMemoryStore.deletePreferences, AList.lookup_erase,
    Option.getD_none]

theorem listAt_deletePreferences_of_ne (h : key ≠ prefKey owner) :
    (store.deletePreferences owner).listAt key = store.listAt key := by
  rw [InMemoryMemoryStore.listAt, InMemoryMemoryStore.deletePreferences, AList.lookup_erase_ne h]
  rfl

end ListAt

/-! ### A history -/

/-- The store holds the last of what was saved for the owner. -/
def Holds (store : InMemoryMemoryStore) (owner : String × String)
    (saved : List UserPreference) : Prop :=
  store.getPreferences owner = saved.rtake store.policy.maxPreferencesPerUser

/-- **One call** keeps the list of an owner, if nobody else it is about shares the string. -/
theorem Holds.exec {saved : List UserPreference} (h : Holds store owner saved)
    (hown : prefKey o.owner = prefKey owner → o.owner = owner) :
    Holds (o.exec py store) owner (o.remember py owner saved) := by
  rw [Holds] at h ⊢
  rw [policy_exec]
  cases o with
  | savePreference pref =>
    by_cases howner : pref.owner = owner
    · subst howner
      cases hsens : pref.isSensitiveKey py with
      | true =>
        rw [MemoryOp.remember, if_neg (by simp [hsens]), ← h, MemoryOp.exec,
          savePreference_of_sensitive hsens]
      | false =>
        -- the list in the store is evicted from as the last of the longer list is
        rw [MemoryOp.remember, if_pos ⟨rfl, hsens⟩, rtake_append_singleton store.policy.pos, ← h]
        exact listAt_savePreference_self hsens
    · rw [MemoryOp.remember, if_neg fun h => howner h.1, ← h]
      exact listAt_savePreference_of_ne fun heq => howner (hown heq.symm)
  | deletePreferences other =>
    by_cases howner : other = owner
    · subst howner
      rw [MemoryOp.remember, if_pos rfl, List.rtake_nil]
      exact listAt_deletePreferences_self _
    · rw [MemoryOp.remember, if_neg howner, ← h]
      exact listAt_deletePreferences_of_ne fun heq => howner (hown heq.symm)
  | getPreferences other => exact h

/-- **A history** keeps the list of an owner, if nobody in it shares the string. -/
theorem Holds.after {saved : List UserPreference} (h : Holds store owner saved)
    (hown : ∀ o ∈ ops, prefKey o.owner = prefKey owner → o.owner = owner) :
    Holds (store.after py ops) owner (ops.foldl (MemoryOp.remember py owner) saved) := by
  induction ops generalizing store saved with
  | nil => exact h
  | cons o ops ih =>
    exact ih (h.exec (hown o List.mem_cons_self)) fun o' ho => hown o' (List.mem_cons_of_mem _ ho)

theorem policy_after : (store.after py ops).policy = store.policy := by
  induction ops generalizing store with
  | nil => rfl
  | cons o ops ih => exact ih.trans policy_exec

theorem answersOwn_of_injOn (h : owners.InjOn prefKey) : AnswersOwn py policy owners := by
  intro ops hops owner howner
  have hnew : Holds (.new policy) owner [] := (List.rtake_nil _).symm
  have hafter : Holds ((InMemoryMemoryStore.new policy).after py ops) owner _ :=
    hnew.after fun o ho heq => h (hops o ho) howner heq
  rwa [Holds, policy_after] at hafter

/-- A preference that is not sensitive. -/
def languageOf (owner : String × String) : UserPreference :=
  ⟨"language", "en", owner.1, owner.2, "", 365⟩

/-- Two owners with one string: the second is answered with what the first has saved. -/
theorem injOn_of_answersOwn (hlower : py.lower "language" = "language")
    (h : AnswersOwn py policy owners) : owners.InjOn prefKey := by
  intro owner howner other hother hkey
  by_contra hne
  have hsens : (languageOf owner).isSensitiveKey py = false := by
    simp [languageOf, UserPreference.isSensitiveKey, hlower]
  have hanswer := h [.savePreference (languageOf owner)]
    (by rintro o ho; obtain rfl := List.mem_singleton.mp ho; exact howner) other hother
  have hempty : savedFor py other [.savePreference (languageOf owner)] = [] :=
    if_neg fun h => hne h.1
  have hfound : ((InMemoryMemoryStore.new policy).savePreference py (languageOf owner)).2.listAt
      (prefKey owner) = _ := listAt_savePreference_self hsens
  rw [hempty, List.rtake_nil, InMemoryMemoryStore.getPreferences, ← hkey] at hanswer
  exact absurd (hfound.symm.trans hanswer) (by simp)

end Simulation

/-- **Per-user bounded lists**: over all histories of a set of owners, every owner is answered
with the last of what was saved for them, exactly if no two of them are joined to one string. -/
theorem answers_own_iff (py : PyLib) (hlower : py.lower "language" = "language")
    (policy : MemoryPolicy) (owners : Set (String × String)) :
    AnswersOwn py policy owners ↔ owners.InjOn prefKey :=
  ⟨injOn_of_answersOwn hlower, answersOwn_of_injOn⟩

theorem takeWhile_prefKey {owner : String × String} (h : ':' ∉ owner.2.toList) :
    (prefKey owner).toList.takeWhile (· ≠ ':') = owner.2.toList := by
  have hkey : (prefKey owner).toList = owner.2.toList ++ ':' :: owner.1.toList := by
    simp [prefKey]
  rw [hkey, List.takeWhile_append_of_pos, List.takeWhile_cons_of_neg (by simp), List.append_nil]
  intro c hc
  exact decide_eq_true fun hcolon => h (hcolon ▸ hc)

/-- Without a colon in the tenants, no two owners are joined to one string. -/
theorem prefKey_injOn {owners : Set (String × String)}
    (h : ∀ owner ∈ owners, ':' ∉ owner.2.toList) : owners.InjOn prefKey := by
  intro owner howner other hother hkey
  have htenant : owner.2 = other.2 := by
    rw [← String.toList_inj, ← takeWhile_prefKey (h owner howner),
      ← takeWhile_prefKey (h other hother), hkey]
  have huser : owner.2 ++ ":" ++ owner.1 = owner.2 ++ ":" ++ other.1 := by
    rw [prefKey, prefKey, ← htenant] at hkey
    exact hkey
  refine Prod.ext ?_ htenant
  simpa [← String.toList_inj] using huser

/-- Two owners that are joined to the same string. -/
def joinedOwners : Set (String × String) := {("c", "a:b"), ("b:c", "a")}

theorem not_injOn_joinedOwners : ¬ joinedOwners.InjOn prefKey := by
  intro h
  exact absurd (h (.inl rfl) (.inr rfl) rfl) (by decide)

/-- A user is answered with the preference of a user of another tenant. -/
theorem joined_owners_mixed :
    ¬ AnswersOwn demoPy ⟨50, by decide⟩ joinedOwners := by
  intro h
  exact not_injOn_joinedOwners (injOn_of_answersOwn rfl h)

/-- Two users of one name, in different tenants. -/
def namesakes : Set (String × String) := {("alice", "acme"), ("alice", "globex")}

/-- Their preferences, one after the other. -/
def namesakesSave : List MemoryOp :=
  [("acme", "en"), ("globex", "fr"), ("acme", "de"), ("acme", "es")].map fun p =>
    .savePreference ⟨"language", p.2, "alice", p.1, "", 365⟩

/-- Where no tenant has a colon in its name: of three preferences the first user is answered with
the last two, and the other with what they have saved themselves. -/
theorem namesakes_answered :
    AnswersOwn demoPy ⟨2, by decide⟩ namesakes ∧
      ((((InMemoryMemoryStore.new ⟨2, by decide⟩).after demoPy namesakesSave).getPreferences
        ("alice", "acme")).map UserPreference.value = ["de", "es"] ∧
      (((InMemoryMemoryStore.new ⟨2, by decide⟩).after demoPy namesakesSave).getPreferences
        ("alice", "globex")).map UserPreference.value = ["fr"]) := by
  have hnames : ∀ owner ∈ namesakes, ':' ∉ owner.2.toList := by
    rintro owner (rfl | rfl)
    · decide
    · decide
  have hanswers : AnswersOwn demoPy ⟨2, by decide⟩ namesakes :=
    (answers_own_iff demoPy rfl ⟨2, by decide⟩ namesakes).mpr (prefKey_injOn hnames)
  have hops : ∀ o ∈ namesakesSave, o.owner ∈ namesakes := by
    intro o ho
    simp only [namesakesSave, List.map_cons, List.map_nil, List.mem_cons, List.not_mem_nil,
      or_false] at ho
    rcases ho with rfl | rfl | rfl | rfl
    · exact .inl rfl
    · exact .inr rfl
    · exact .inl rfl
    · exact .inl rfl
  refine ⟨hanswers, ?_, ?_⟩
  · rw [hanswers namesakesSave hops _ (.inl rfl)]
    decide +kernel
  · rw [hanswers namesakesSave hops _ (.inr rfl)]
    decide +kernel

end BankingAgent
