import BankingAgent.Agent
import Mathlib.Data.Finset.Insert

/-!
# `security/authorization.py`: policies that are composed

A policy looks at who asks, at the attributes of what is asked for and at the action, and may
await whatever it likes before it decides. `CompositePolicy` asks its policies in order and ends
with the first that denies.

`TenantScopedPolicy` compares only attributes that are set: a resource without a tenant belongs
to everybody, and an account without an owner to everybody in its tenant.

* `composite_allows` — what is allowed, every policy has allowed.
* `composite_isolates` — with `TenantScopedPolicy` among the policies, wherever it stands, a
  tenant or an owner that is set is respected.
-/

namespace BankingAgent

open Async

/-- `TrustedRequestContext`, with the roles the policies read. -/
structure TrustedRequestContext : Type extends TrustedContext where
  roles : Finset String

/-- `ResourceAttributes`. What is unset is `""`. -/
structure ResourceAttributes : Type where
  resourceType : String
  resourceId : String
  tenantId : String
  ownerSubjectId : String
  riskLevel : String
  sideEffect : Bool

/-- `AuthzDecision`. -/
structure AuthzDecision : Type where
  allowed : Bool
  reason : String
  errorCode : String

/-- `AuthzDecision.deny`. -/
def AuthzDecision.deny (reason errorCode : String) : AuthzDecision := ⟨false, reason, errorCode⟩

/-- `AuthzDecision.allow`. -/
def AuthzDecision.allow (reason : String) : AuthzDecision := ⟨true, reason, ""⟩

variable {Op : Type} {Res : Op → Type} {ε : Type}

/-- `AuthorizationPolicy`: its `authorize` is a coroutine over whatever operations there are. -/
abbrev AuthorizationPolicy (Op : Type) (Res : Op → Type) (ε : Type) : Type :=
  TrustedRequestContext → ResourceAttributes → String → Prog Op Res ε AuthzDecision

/-- The decision of `TenantScopedPolicy`, which looks at nothing but the attributes. -/
def tenantScopedDecision (context : TrustedRequestContext) (resource : ResourceAttributes) :
    AuthzDecision :=
  if resource.tenantId ≠ "" ∧ context.tenantId ≠ resource.tenantId then
    .deny "Cross-tenant access denied" "CROSS_TENANT_DENIED"
  else if resource.resourceType = "account" ∧ resource.ownerSubjectId ≠ "" ∧
      context.subjectId ≠ resource.ownerSubjectId ∧ "banking_officer" ∉ context.roles then
    .deny "Account access denied" "ACCOUNT_ACCESS_DENIED"
  else if resource.riskLevel = "critical" ∧ "approver" ∉ context.roles then
    .deny "Critical operation requires approver role" "INSUFFICIENT_ROLE"
  else .allow s!"Access granted to {context.subjectId}"

/-- `TenantScopedPolicy.authorize`. -/
def tenantScopedPolicy : AuthorizationPolicy Op Res ε :=
  fun context resource _ => return tenantScopedDecision context resource

/-- `CompositePolicy.authorize`. -/
def compositePolicy : List (AuthorizationPolicy Op Res ε) → AuthorizationPolicy Op Res ε
  | [], _, _, _ => return .allow "All policies passed"
  | policy :: policies, context, resource, action => do
    let decision ← policy context resource action
    if !decision.allowed then return decision
    else compositePolicy policies context resource action

/-- The policy can come to an end with the decision. -/
def Decides (policy : AuthorizationPolicy Op Res ε) (context : TrustedRequestContext)
    (resource : ResourceAttributes) (action : String) (decision : AuthzDecision) : Prop :=
  ∃ es, Trace (policy context resource action) es (.ret decision)

variable {context : TrustedRequestContext} {resource : ResourceAttributes} {action : String}
  {decision : AuthzDecision} {policy : AuthorizationPolicy Op Res ε}
  {policies : List (AuthorizationPolicy Op Res ε)}

/-! ## One policy -/

/-- What `TenantScopedPolicy` allows, exactly. -/
theorem tenantScopedDecision_allowed_iff :
    (tenantScopedDecision context resource).allowed = true ↔
      (resource.tenantId = "" ∨ context.tenantId = resource.tenantId) ∧
        (resource.resourceType = "account" → resource.ownerSubjectId = "" ∨
          context.subjectId = resource.ownerSubjectId ∨ "banking_officer" ∈ context.roles) ∧
        (resource.riskLevel = "critical" → "approver" ∈ context.roles) := by
  rw [tenantScopedDecision]
  split
  · rename_i h
    simp [AuthzDecision.deny, h]
  · split
    · rename_i h
      simp [AuthzDecision.deny, h]
    · rename_i htenant howner
      split
      · rename_i h
        simp [AuthzDecision.deny, h]
      · rename_i hrole
        -- none of the three refusals applies
        refine iff_of_true rfl ⟨?_, fun haccount => ?_, fun hcritical => ?_⟩
        · by_contra hne
          exact htenant (not_or.mp hne)
        · by_contra hne
          obtain ⟨hset, hsubject, hofficer⟩ := not_or.mp hne |>.imp_right not_or.mp
          exact howner ⟨haccount, hset, hsubject, hofficer⟩
        · by_contra happrover
          exact hrole ⟨hcritical, happrover⟩

theorem decides_tenantScopedPolicy_iff :
    Decides (tenantScopedPolicy : AuthorizationPolicy Op Res ε) context resource action decision ↔
      decision = tenantScopedDecision context resource := by
  constructor
  · rintro ⟨es, ht⟩
    exact Prog.ret.inj (Trace.of_ret ht).2
  · rintro rfl
    exact ⟨[], .nil _⟩

/-! ## Policies in order -/

/-- The first policy denies, or it allows and the others decide. -/
theorem decides_composite_cons (h : Decides (compositePolicy (policy :: policies)) context resource
    action decision) :
    (Decides policy context resource action decision ∧ decision.allowed = false) ∨
      ∃ first, Decides policy context resource action first ∧ first.allowed = true ∧
        Decides (compositePolicy policies) context resource action decision := by
  obtain ⟨es, ht⟩ := h
  rcases Trace.of_bind ht with ⟨p', -, hret, hq⟩ | ⟨first, es₁, es₂, h₁, -, h₂⟩
  · obtain ⟨a, ha, -⟩ := Prog.bind_eq_ret hq.symm
    exact absurd ha (hret a)
  · cases hfirst : first.allowed with
    | false =>
      rw [hfirst] at h₂
      obtain rfl := Prog.ret.inj (Trace.of_ret h₂).2
      exact .inl ⟨⟨es₁, h₁⟩, hfirst⟩
    | true =>
      rw [hfirst] at h₂
      exact .inr ⟨first, ⟨es₁, h₁⟩, hfirst, es₂, h₂⟩

/-- **What a composite allows**, every one of its policies has allowed. -/
theorem composite_allows (h : Decides (compositePolicy policies) context resource action decision)
    (hallowed : decision.allowed = true) (hmem : policy ∈ policies) :
    ∃ d, Decides policy context resource action d ∧ d.allowed = true := by
  induction policies with
  | nil => cases hmem
  | cons head policies ih =>
    rcases decides_composite_cons h with ⟨-, hdenied⟩ | ⟨first, hfirst, hok, hrest⟩
    · rw [hallowed] at hdenied
      cases hdenied
    · rcases List.mem_cons.mp hmem with rfl | hmem
      · exact ⟨first, hfirst, hok⟩
      · exact ih hrest hmem

/-- **Isolation under composition**: with `TenantScopedPolicy` among the policies, what is
allowed respects every tenant and every owner that is set. -/
theorem composite_isolates (policies : List (AuthorizationPolicy Op Res ε))
    (hmem : tenantScopedPolicy ∈ policies) (context : TrustedRequestContext)
    (resource : ResourceAttributes) (action : String) (decision : AuthzDecision)
    (h : Decides (compositePolicy policies) context resource action decision)
    (hallowed : decision.allowed = true) :
    (resource.tenantId ≠ "" → context.tenantId = resource.tenantId) ∧
      (resource.resourceType = "account" → resource.ownerSubjectId ≠ "" →
        context.subjectId = resource.ownerSubjectId ∨ "banking_officer" ∈ context.roles) := by
  obtain ⟨d, hd, hok⟩ := composite_allows h hallowed hmem
  obtain rfl := decides_tenantScopedPolicy_iff.mp hd
  obtain ⟨htenant, howner, -⟩ := tenantScopedDecision_allowed_iff.mp hok
  exact ⟨htenant.resolve_left, fun haccount => (howner haccount).resolve_left⟩

/-! ## Two requests -/

/-- A customer of the first tenant. -/
def customer : TrustedRequestContext := ⟨⟨"alice", "t1"⟩, ∅⟩

/-- An account nobody has filled in the owner and the tenant of. -/
def unlabelledAccount : ResourceAttributes := ⟨"account", "ACC-2", "", "", "low", false⟩

/-- A policy that awaits a decision from outside. -/
def askOutside : AuthorizationPolicy Unit (fun _ => Bool) Empty :=
  fun _ _ _ => .op () fun answer => .ret ⟨answer, "", ""⟩

/-- An account whose owner and tenant are unset is open to everybody. -/
theorem unlabelled_account_open :
    ∃ decision, Decides (compositePolicy [tenantScopedPolicy, askOutside]) customer
        unlabelledAccount "read_account" decision ∧ decision.allowed = true ∧
      ¬ (customer.tenantId = unlabelledAccount.tenantId ∧
        (unlabelledAccount.resourceType = "account" →
          customer.subjectId = unlabelledAccount.ownerSubjectId ∨
            "banking_officer" ∈ customer.roles)) :=
  ⟨_, ⟨[⟨(), true⟩], .cons (.nil _)⟩, rfl, by decide⟩

/-- Her own account is open to her, and is what it says it is. -/
theorem own_account_open :
    customer.tenantId = "t1" ∧
      (customer.subjectId = "alice" ∨ "banking_officer" ∈ customer.roles) := by
  obtain ⟨htenant, howner⟩ := composite_isolates [askOutside, tenantScopedPolicy] (by simp)
    customer ⟨"account", "ACC-1", "t1", "alice", "low", false⟩ "read_account" _
    ⟨[⟨(), true⟩], .cons (.nil _)⟩ rfl
  exact ⟨htenant (by decide), howner rfl (by decide)⟩

end BankingAgent
