import BankingAgent.Authorization
import Mathlib.Data.Finset.Filter

/-!
# `iam.py` and the policies over it: more roles, more access

`RBACPolicy` maps the action to a permission and looks it up among the permissions of the known
roles of the request. `TenantScopedPolicy` asks for a role in two places. Each refuses for want of a
role only, so what a set of roles may do, a larger one may do as well; and a composition allows
what each of its policies allows.

* `allows_composite_iff` — a composite allows what all its policies allow.
* `roles_monotone` — granting a role never takes an access away.
-/

namespace BankingAgent

open Async

/-- `iam.Role`. -/
inductive Role : Type where
  | customer
  | bankingOfficer
  | approver
  | complianceOfficer
  | admin
  | auditor
  | system
  deriving DecidableEq

/-- The roles, as `Role` iterates over them. -/
def Role.all : Finset Role :=
  {customer, bankingOfficer, approver, complianceOfficer, admin, auditor, system}

/-- The value of the role. -/
def Role.value : Role → String
  | customer => "customer"
  | bankingOfficer => "banking_officer"
  | approver => "approver"
  | complianceOfficer => "compliance_officer"
  | admin => "admin"
  | auditor => "auditor"
  | system => "system"

/-- `iam.Permission`. -/
inductive Permission : Type where
  | accountRead
  | accountReadOwn
  | transferCreate
  | transferSubmit
  | transferCancel
  | transferRead
  | beneficiaryRead
  | auditRead
  | userManage
  | reportSuspicious
  | approveLowRisk
  | approveHighRisk
  | approveCritical
  deriving DecidableEq

/-- The permissions, as `Permission` iterates over them. -/
def Permission.all : Finset Permission :=
  {accountRead, accountReadOwn, transferCreate, transferSubmit, transferCancel, transferRead,
    beneficiaryRead, auditRead, userManage, reportSuspicious, approveLowRisk, approveHighRisk,
    approveCritical}

/-- The value of the permission. -/
def Permission.value : Permission → String
  | accountRead => "account:read"
  | accountReadOwn => "account:read_own"
  | transferCreate => "transfer:create"
  | transferSubmit => "transfer:submit"
  | transferCancel => "transfer:cancel"
  | transferRead => "transfer:read"
  | beneficiaryRead => "beneficiary:read"
  | auditRead => "audit:read"
  | userManage => "user:manage"
  | reportSuspicious => "report:suspicious"
  | approveLowRisk => "approve:low_risk"
  | approveHighRisk => "approve:high_risk"
  | approveCritical => "approve:critical"

/-- `ROLE_PERMISSIONS`. -/
def rolePermissions : Role → Finset Permission
  | .customer => {.accountReadOwn, .transferCreate, .transferCancel, .transferRead,
      .beneficiaryRead, .reportSuspicious}
  | .bankingOfficer => {.accountRead, .transferCreate, .transferSubmit, .transferCancel,
      .transferRead, .beneficiaryRead, .approveLowRisk, .reportSuspicious}
  | .approver => {.accountRead, .transferRead, .approveLowRisk, .approveHighRisk, .approveCritical}
  | .complianceOfficer => {.accountRead, .transferRead, .auditRead, .reportSuspicious,
      .approveCritical}
  | .admin => {.accountRead, .transferRead, .auditRead, .userManage}
  | .auditor => {.auditRead}
  | .system => Permission.all

/-- `has_permission`. -/
def hasPermission (roles : Finset Role) (permission : Permission) : Bool :=
  decide (∃ role ∈ roles, permission ∈ rolePermissions role)

/-- `_action_to_permission`. -/
def actionToPermission (action : String) : Option Permission :=
  [("read_account", .accountRead),
    ("read_own_account", .accountReadOwn),
    ("create_transfer", .transferCreate),
    ("submit_transfer", .transferSubmit),
    ("cancel_transfer", .transferCancel),
    ("read_transfer", .transferRead),
    ("read_beneficiary", .beneficiaryRead),
    ("audit_read", .auditRead),
    ("report_suspicious", .reportSuspicious),
    ("approve_low_risk", .approveLowRisk),
    ("approve_high_risk", .approveHighRisk),
    ("approve_critical", Permission.approveCritical)].lookup action

/-- The roles among the strings; what is no role is passed over. -/
def validRoles (roles : Finset String) : Finset Role :=
  Role.all.filter fun role => role.value ∈ roles

/-- The decision of `RBACPolicy`. -/
def rbacDecision (context : TrustedRequestContext) (action : String) : AuthzDecision :=
  if validRoles context.roles = ∅ then .deny "No valid roles" "NO_ROLES"
  else
    match actionToPermission action with
    | none => .deny s!"Unknown action: {action}" "UNKNOWN_ACTION"
    | some permission =>
      if hasPermission (validRoles context.roles) permission then
        .allow s!"Permission {permission.value} granted"
      else .deny s!"Missing permission: {permission.value}" "INSUFFICIENT_PERMISSION"

variable {Op : Type} {Res : Op → Type} {ε : Type}

/-- `RBACPolicy.authorize`. -/
def rbacPolicy : AuthorizationPolicy Op Res ε :=
  fun context _ action => return rbacDecision context action

/-- The policies of the module. -/
inductive PolicyKind : Type where
  | tenantScoped
  | rbac
  deriving DecidableEq

/-- The policy of the kind. -/
def PolicyKind.policy : PolicyKind → AuthorizationPolicy Op Res ε
  | tenantScoped => tenantScopedPolicy
  | rbac => rbacPolicy

variable {context : TrustedRequestContext} {resource : ResourceAttributes} {action : String}
  {decision : AuthzDecision} {policy : AuthorizationPolicy Op Res ε}
  {policies : List (AuthorizationPolicy Op Res ε)} {roles roles' : Finset String}

/-- The policy comes to a decision, and every decision it can come to is to allow. -/
def Allows (policy : AuthorizationPolicy Op Res ε) (context : TrustedRequestContext)
    (resource : ResourceAttributes) (action : String) : Prop :=
  (∃ decision, Decides policy context resource action decision) ∧
    ∀ decision, Decides policy context resource action decision → decision.allowed = true

/-! ## What a composite allows -/

theorem decides_composite_of_denied (h : Decides policy context resource action decision)
    (hdenied : decision.allowed = false) :
    Decides (compositePolicy (policy :: policies)) context resource action decision := by
  obtain ⟨es, ht⟩ := h
  refine ⟨es ++ [], Trace.bind ht rfl ?_⟩
  rw [hdenied]
  exact .nil _

theorem decides_composite_of_allowed {first : AuthzDecision}
    (h : Decides policy context resource action first) (hallowed : first.allowed = true)
    (hrest : Decides (compositePolicy policies) context resource action decision) :
    Decides (compositePolicy (policy :: policies)) context resource action decision := by
  obtain ⟨es, ht⟩ := h
  obtain ⟨es', ht'⟩ := hrest
  refine ⟨es ++ es', Trace.bind ht rfl ?_⟩
  rw [hallowed]
  exact ht'

theorem allows_composite_cons_iff :
    Allows (compositePolicy (policy :: policies)) context resource action ↔
      Allows policy context resource action ∧
        Allows (compositePolicy policies) context resource action := by
  constructor
  · rintro ⟨⟨decision, h⟩, hall⟩
    rcases decides_composite_cons h with ⟨-, hdenied⟩ | ⟨first, hfirst, hok, hrest⟩
    · rw [hall _ h] at hdenied
      cases hdenied
    · refine ⟨⟨⟨first, hfirst⟩, fun d hd => ?_⟩, ⟨decision, hrest⟩, fun d hd => ?_⟩
      · cases hd' : d.allowed with
        | true => rfl
        | false => exact hd'.symm.trans (hall d (decides_composite_of_denied hd hd'))
      · exact hall d (decides_composite_of_allowed hfirst hok hd)
  · rintro ⟨⟨⟨first, hfirst⟩, hall⟩, ⟨decision, hrest⟩, hall'⟩
    refine ⟨⟨decision, decides_composite_of_allowed hfirst (hall _ hfirst) hrest⟩, fun d hd => ?_⟩
    rcases decides_composite_cons hd with ⟨hd', -⟩ | ⟨-, -, -, hd'⟩
    · exact hall d hd'
    · exact hall' d hd'

/-- **What a composite allows**, exactly: what all its policies allow. -/
theorem allows_composite_iff : Allows (compositePolicy policies) context resource action ↔
    ∀ policy ∈ policies, Allows policy context resource action := by
  induction policies with
  | nil =>
    refine iff_of_true ⟨⟨_, [], .nil _⟩, fun d hd => ?_⟩ (by simp)
    obtain ⟨es, ht⟩ := hd
    rw [Prog.ret.inj (Trace.of_ret ht).2]
    rfl
  | cons policy policies ih => rw [allows_composite_cons_iff, ih, List.forall_mem_cons]

/-- A policy that awaits nothing allows what it decides to allow. -/
theorem allows_iff_of_pure {d : AuthzDecision}
    (h : policy context resource action = (return d : Prog Op Res ε AuthzDecision)) :
    Allows policy context resource action ↔ d.allowed = true := by
  have hdecides : ∀ d', Decides policy context resource action d' ↔ d' = d := by
    intro d'
    rw [Decides, h]
    constructor
    · rintro ⟨es, ht⟩
      exact Prog.ret.inj (Trace.of_ret ht).2
    · rintro rfl
      exact ⟨[], .nil _⟩
  rw [Allows]
  simp only [hdecides]
  exact ⟨fun hall => hall.2 d rfl, fun hd => ⟨⟨d, rfl⟩, fun d' hd' => by rw [hd', hd]⟩⟩

/-! ## More roles -/

/-- What the policy allows with some roles, it allows with more. -/
def RoleMonotone (policy : AuthorizationPolicy Op Res ε) : Prop :=
  ∀ (context : TrustedRequestContext) (resource : ResourceAttributes) (action : String)
    (roles : Finset String), context.roles ⊆ roles → Allows policy context resource action →
      Allows policy { context with roles := roles } resource action

/-- Monotone policies compose. -/
theorem RoleMonotone.composite (h : ∀ policy ∈ policies, RoleMonotone policy) :
    RoleMonotone (compositePolicy policies) := by
  intro context resource action roles hsub hallows
  rw [allows_composite_iff] at hallows ⊢
  exact fun policy hmem => h policy hmem context resource action roles hsub (hallows policy hmem)

theorem roleMonotone_tenantScopedPolicy :
    RoleMonotone (tenantScopedPolicy : AuthorizationPolicy Op Res ε) := by
  intro context resource action roles hsub hallows
  rw [allows_iff_of_pure rfl, tenantScopedDecision_allowed_iff] at hallows ⊢
  obtain ⟨htenant, howner, hcritical⟩ := hallows
  -- both roles it asks for are still there
  refine ⟨htenant, fun haccount => ?_, fun hrisk => hsub (hcritical hrisk)⟩
  rcases howner haccount with hunset | hsubject | hofficer
  · exact .inl hunset
  · exact .inr (.inl hsubject)
  · exact .inr (.inr (hsub hofficer))

theorem validRoles_mono (hsub : roles ⊆ roles') : validRoles roles ⊆ validRoles roles' := by
  intro role hrole
  obtain ⟨hall, hvalue⟩ := Finset.mem_filter.mp hrole
  exact Finset.mem_filter.mpr ⟨hall, hsub hvalue⟩

theorem hasPermission_mono {some more : Finset Role} {permission : Permission} (hsub : some ⊆ more)
    (h : hasPermission some permission = true) : hasPermission more permission = true := by
  obtain ⟨role, hrole, hpermission⟩ := of_decide_eq_true h
  exact decide_eq_true ⟨role, hsub hrole, hpermission⟩

/-- What `RBACPolicy` allows, exactly: a permission that one of the roles has. -/
theorem rbacDecision_allowed_iff : (rbacDecision context action).allowed = true ↔
    ∃ permission, actionToPermission action = some permission ∧
      hasPermission (validRoles context.roles) permission = true := by
  rw [rbacDecision]
  by_cases hnone : validRoles context.roles = ∅
  · rw [if_pos hnone, hnone]
    simp [AuthzDecision.deny, hasPermission]
  · rw [if_neg hnone]
    cases actionToPermission action with
    | none => simp [AuthzDecision.deny]
    | some permission =>
      cases hhas : hasPermission (validRoles context.roles) permission with
      | true => simp [AuthzDecision.allow, hhas]
      | false => simp [AuthzDecision.deny, hhas]

theorem roleMonotone_rbacPolicy : RoleMonotone (rbacPolicy : AuthorizationPolicy Op Res ε) := by
  intro context resource action roles hsub hallows
  rw [allows_iff_of_pure rfl, rbacDecision_allowed_iff] at hallows ⊢
  obtain ⟨permission, hperm, hhas⟩ := hallows
  exact ⟨permission, hperm, hasPermission_mono (validRoles_mono hsub) hhas⟩

theorem PolicyKind.roleMonotone (kind : PolicyKind) :
    RoleMonotone (kind.policy : AuthorizationPolicy Op Res ε) := by
  cases kind with
  | tenantScoped => exact roleMonotone_tenantScopedPolicy
  | rbac => exact roleMonotone_rbacPolicy

/-- **Role monotonicity**: whatever `TenantScopedPolicy` and `RBACPolicy` are composed, and in
whatever order, granting a role never takes an access away. -/
theorem roles_monotone (kinds : List PolicyKind) (context : TrustedRequestContext)
    (resource : ResourceAttributes) (action : String) (roles : Finset String)
    (hsub : context.roles ⊆ roles)
    (hallows : Allows (compositePolicy (kinds.map PolicyKind.policy) :
      AuthorizationPolicy Op Res ε) context resource action) :
    Allows (compositePolicy (kinds.map PolicyKind.policy) : AuthorizationPolicy Op Res ε)
      { context with roles := roles } resource action := by
  refine RoleMonotone.composite (fun policy hmem => ?_) context resource action roles hsub hallows
  obtain ⟨kind, -, rfl⟩ := List.mem_map.mp hmem
  exact kind.roleMonotone

/-- A customer reads her account, and does so still as an auditor of a kind nobody knows. -/
theorem roles_monotone_customer :
    Allows (compositePolicy ([.tenantScoped, .rbac].map PolicyKind.policy) :
        AuthorizationPolicy Unit (fun _ => Unit) Empty)
      { customer with roles := {"customer", "auditor of old"} }
      ⟨"account", "ACC-1", "t1", "alice", "low", false⟩ "read_own_account" := by
  refine roles_monotone [.tenantScoped, .rbac] { customer with roles := {"customer"} } _ _ _
    (by decide) ?_
  rw [allows_composite_iff]
  intro policy hmem
  obtain ⟨kind, -, rfl⟩ := List.mem_map.mp hmem
  cases kind with
  | tenantScoped => exact (allows_iff_of_pure rfl).mpr (by decide)
  | rbac => exact (allows_iff_of_pure rfl).mpr (by decide)

end BankingAgent
