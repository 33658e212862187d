import BankingAgent.Async.Outline
import BankingAgent.Async.Sequential

/-!
# `lifecycle.py` and the rollback of `bootstrap.py`

`ApplicationResources` owns what the application has to close. Its `close` raises a flag before its
first await, so of all the calls one goes through the resources and the others return at once. An
`Exception` of a resource is logged; what is no `Exception`, such as `CancelledError`, ends the
call there and then. `bootstrap_app` hands each resource over as soon as it is made, and calls
`close` when anything raises.

* `bootstrap_rolls_back` — a bootstrap that raises has tried to close whatever it had made.
* `closed_in_turn` — however many calls of `close` there are, each resource is closed once at most.
-/

namespace BankingAgent

open Async

namespace Lifecycle

/-! ## The resources -/

/-- The attributes of `ApplicationResources`. -/
inductive Resource : Type where
  | hitlStore
  | grantRepo
  | idempotencyStore
  | eventStore
  | llmProvider
  | mcpClient
  deriving DecidableEq

/-- The order in which `close` goes through them. -/
def closeOrder : List Resource :=
  [.hitlStore, .grantRepo, .idempotencyStore, .eventStore, .llmProvider, .mcpClient]

theorem mem_closeOrder (r : Resource) : r ∈ closeOrder := by cases r <;> decide

/-- What is raised. -/
inductive Raised : Type where
  | runtimeError (message : String)
  | hitlConfigurationError (message : String)
  /-- another `Exception` -/
  | exception
  /-- a `BaseException` that is no `Exception` -/
  | baseException
  deriving DecidableEq

/-- `isinstance(exc, Exception)`. -/
def Raised.isException : Raised → Bool
  | baseException => false
  | _ => true

/-- `ApplicationResources`. -/
structure ApplicationResources : Type where
  /-- the attribute is set, to something that can be closed -/
  owned : Resource → Bool
  /-- `_closed` -/
  closed : Bool
  /-- the resource is in use: it was connected (the provider: made), and not closed since -/
  live : Resource → Bool

/-- `ApplicationResources()`. -/
def ApplicationResources.new : ApplicationResources := ⟨fun _ => false, false, fun _ => false⟩

namespace ApplicationResources

/-- The resource is in use, or not. -/
def setLive (s : ApplicationResources) (r : Resource) (live : Bool) : ApplicationResources :=
  { s with live := Function.update s.live r live }

/-- The resource is handed over. The provider is in use from then on. -/
def own (s : ApplicationResources) (r : Resource) : ApplicationResources :=
  { s with owned := Function.update s.owned r true,
           live := Function.update s.live r (r = .llmProvider) }

variable (s : ApplicationResources) (r r' : Resource) (b : Bool)

theorem setLive_live : (s.setLive r b).live r' = if r' = r then b else s.live r' :=
  Function.update_apply s.live r b r'

theorem own_owned : (s.own r).owned r' = if r' = r then true else s.owned r' :=
  Function.update_apply s.owned r true r'

theorem own_live : (s.own r).live r' = if r' = r then decide (r = .llmProvider) else s.live r' :=
  Function.update_apply s.live r _ r'

end ApplicationResources

/-- What the coroutines do. -/
inductive ResourceOp : Type where
  /-- `if self._closed: return`, and `self._closed = True` -/
  | enter
  /-- is there something to be closed -/
  | owns (r : Resource)
  /-- `await self.r.close()`; the client is disconnected -/
  | close (r : Resource)
  /-- make the resource, and hand it over -/
  | construct (r : Resource)
  /-- `await r.connect()` -/
  | connect (r : Resource)
  /-- anything else that may raise -/
  | other

/-- The answers: a truth value, or what is raised. -/
abbrev ResourceOp.Res : ResourceOp → Type
  | enter => Bool
  | owns _ => Bool
  | _ => Option Raised

/-- What is left to choose: what is raised, and whether the resource is in use all the same. -/
structure ResourceChoice : Type where
  raised : Option Raised
  live : Bool

/-- What an operation does to the resources. -/
def ResourceOp.exec : (o : ResourceOp) → ResourceChoice → ApplicationResources →
    Option (o.Res × ApplicationResources)
  | enter, _, s => some (s.closed, { s with closed := true })
  | owns r, _, s => some (s.owned r, s)
  | close r, env, s =>
    some (env.raised, s.setLive r (s.live r && env.raised.isSome && env.live))
  | construct r, env, s =>
    some (env.raised, if env.raised.isSome then s else s.own r)
  | connect r, env, s =>
    some (env.raised, s.setLive r (env.raised.isNone || env.live))
  | other, env, s => some (env.raised, s)

/-! ## The coroutines -/

/-- The coroutines of the bootstrap and the shutdown. -/
abbrev ResourceProg : Type → Type := Prog ResourceOp ResourceOp.Res Raised

/-- Go on, or raise. -/
def orRaise : Option Raised → ResourceProg Unit
  | none => .ret ()
  | some e => .raise e

/-- `except Exception`: it is logged. -/
def orLog : Option Raised → ResourceProg Unit
  | none => .ret ()
  | some e => if e.isException then .ret () else .raise e

/-- `close`, for one resource. -/
def closeOne (r : Resource) : ResourceProg Unit := do
  if ← Prog.await (.owns r) then
    Prog.await (.close r) >>= orLog

/-- `close`, for some resources. -/
def closeAll : List Resource → ResourceProg Unit
  | [] => pure ()
  | r :: rest => do
    closeOne r
    closeAll rest

/-- `ApplicationResources.close`. -/
def close : ResourceProg Unit := do
  if ← Prog.await .enter then pure () else closeAll closeOrder

/-- An approval actor resolver that is handed to `bootstrap_app`. -/
inductive ResolverKind : Type where
  | development
  | other
  deriving DecidableEq

/-- The arguments of `bootstrap_app`, and the token it finds in the environment; what is not given
is `""`. -/
structure BootstrapArgs : Type where
  dbPath : String
  /-- `agent_config.persistence.db_path` -/
  configDbPath : String
  productionMode : Bool
  tokenEnvVar : String
  token : String
  resolver : Option ResolverKind

/-- `bootstrap_app`, phase 1. -/
def BootstrapArgs.validate (b : BootstrapArgs) : Except Raised Unit :=
  if b.dbPath = "" ∧ b.productionMode then
    .error (.runtimeError
      "Production mode requires db_path — refusing to start without durable storage")
  else if b.token = "" then
    .error (.runtimeError s!"Environment variable {b.tokenEnvVar} is not set")
  else if b.resolver = none ∧ b.productionMode then
    .error (.runtimeError "Production mode requires approval_actor_resolver")
  else if b.productionMode ∧ b.resolver = some .development then
    .error (.runtimeError "DevelopmentHeaderResolver not allowed in production mode")
  else .ok ()

/-- `resources.r = R(…)`. -/
def construct (r : Resource) : ResourceProg Unit := Prog.await (.construct r) >>= orRaise

/-- `await r.connect()`. -/
def connect (r : Resource) : ResourceProg Unit := Prog.await (.connect r) >>= orRaise

/-- Anything else. -/
def other : ResourceProg Unit := Prog.await .other >>= orRaise

/-- `bootstrap_app`, phase 2, inside the `try`. -/
def build (b : BootstrapArgs) : ResourceProg Unit := do
  construct .llmProvider
  construct .mcpClient
  connect .mcpClient
  -- the gateway
  other
  if b.dbPath ≠ "" then
    construct .hitlStore
    construct .grantRepo
    construct .idempotencyStore
    construct .eventStore
    connect .eventStore
    -- the executor
    other
  else if b.productionMode then
    .raise (.hitlConfigurationError "Production mode requires full HITL dependency set")
  -- the registries and the routers
  other
  -- `create_app`, which refuses to go without an executor
  if b.dbPath = "" ∧ b.configDbPath ≠ "" then
    .raise (.hitlConfigurationError
      ("HITL is fully enabled (hitl_store + grant_repo configured) " ++
        "but approval_executor is not provided. " ++
        "An HITL-enabled application requires HITLApprovalExecutor, " ++
        "HITL store, GrantRepository, IdempotencyStore, EventStore, and actor resolver."))
  other

/-- `bootstrap_app`. -/
def bootstrapApp (b : BootstrapArgs) : ResourceProg Unit := do
  -- the configurations
  other
  match b.validate with
  | .error e => .raise e
  | .ok () =>
    -- `configure_logging()`
    other
    match ← (build b).attempt with
    | .ok () => pure ()
    | .error e => do
      close
      .raise e

/-! ## The protocol -/

/-- How far a coroutine is, with the resources it has made, or tried to close. -/
inductive Stage : Type where
  /-- nothing is closed yet -/
  | before (made : List Resource)
  /-- somebody else closes -/
  | late
  | closing (tried : List (Resource × Option Raised)) (rest : List Resource)
  /-- the next one is there -/
  | trying (tried : List (Resource × Option Raised)) (r : Resource) (rest : List Resource)
  /-- ended by what is no `Exception` -/
  | cut (tried : List (Resource × Option Raised))

/-- What was tried to be closed, in its order, and what was raised. -/
def Stage.tried : Stage → List (Resource × Option Raised)
  | closing tried _ => tried
  | trying tried _ _ => tried
  | cut tried => tried
  | _ => []

/-- The moves of `close`. -/
inductive Closes : Stage → (o : ResourceOp) → o.Res → Stage → Prop
  | late (made : List Resource) : Closes (.before made) .enter true .late
  | enter (made : List Resource) : Closes (.before made) .enter false (.closing [] closeOrder)
  | skip {tried : List (Resource × Option Raised)} (r : Resource) (rest : List Resource) :
      Closes (.closing tried (r :: rest)) (.owns r) false (.closing tried rest)
  | mine {tried : List (Resource × Option Raised)} (r : Resource) (rest : List Resource) :
      Closes (.closing tried (r :: rest)) (.owns r) true (.trying tried r rest)
  | close {tried : List (Resource × Option Raised)} {r : Resource} {rest : List Resource}
      {x : Option Raised} (logged : ∀ e, x = some e → e.isException = true) :
      Closes (.trying tried r rest) (.close r) x (.closing (tried ++ [(r, x)]) rest)
  | cut {tried : List (Resource × Option Raised)} {r : Resource} {rest : List Resource}
      {e : Raised} (fatal : e.isException = false) :
      Closes (.trying tried r rest) (.close r) (some e) (.cut (tried ++ [(r, some e)]))

/-- The moves of `bootstrap_app`. -/
inductive Builds : Stage → (o : ResourceOp) → o.Res → Stage → Prop
  | other (made : List Resource) (x : Option Raised) : Builds (.before made) .other x (.before made)
  | made {made : List Resource} (r : Resource) :
      Builds (.before made) (.construct r) none (.before (r :: made))
  | unmade {made : List Resource} (r : Resource) (e : Raised) :
      Builds (.before made) (.construct r) (some e) (.before made)
  | connect {made : List Resource} {r : Resource} (here : r ∈ made) (x : Option Raised) :
      Builds (.before made) (.connect r) x (.before made)
  | closes {p q : Stage} {o : ResourceOp} {x : o.Res} (move : Closes p o x q) : Builds p o x q

/-- How `close` ends for the resources before the rest. -/
inductive ClosedTo (rest : List Resource) : Stage → Except Raised Unit → Prop
  | reached (tried : List (Resource × Option Raised)) : ClosedTo rest (.closing tried rest) (.ok ())
  | cut (tried : List (Resource × Option Raised)) (e : Raised) :
      ClosedTo rest (.cut tried) (.error e)

/-- How `close` ends. -/
inductive Closed : Stage → Except Raised Unit → Prop
  | late : Closed .late (.ok ())
  | mine {p : Stage} {out : Except Raised Unit} (h : ClosedTo [] p out) : Closed p out

/-- One resource. -/
theorem closeOne_follows {tried : List (Resource × Option Raised)} (r : Resource)
    (rest : List Resource) :
    Follows Closes (ClosedTo rest) (closeOne r) (.closing tried (r :: rest)) := by
  rintro (_ | _)
  · exact ⟨_, .skip r rest, .reached tried⟩
  · refine ⟨_, .mine r rest, ?_⟩
    rintro (_ | e)
    · exact ⟨_, .close nofun, .reached _⟩
    · cases he : e.isException with
      | true =>
        refine ⟨_, .close (by rintro _ ⟨⟩; exact he), ?_⟩
        simp only [Prog.ret_bind, orLog, he, if_true]
        exact .reached _
      | false =>
        refine ⟨_, .cut he, ?_⟩
        simp only [Prog.ret_bind, orLog, he]
        exact .cut _ e

theorem closeAll_follows (rest : List Resource) {tried : List (Resource × Option Raised)} :
    Follows Closes (ClosedTo []) (closeAll rest) (.closing tried rest) := by
  induction rest generalizing tried with
  | nil => exact .reached tried
  | cons r rest ih =>
    refine Follows.bind ?_ ?_ (closeOne_follows r rest)
    · rintro p _ ⟨⟩
      exact ih
    · rintro p e ⟨⟩
      exact .cut _ e

/-- `close` obeys its protocol. -/
theorem close_follows (made : List Resource) : Follows Closes Closed close (.before made) := by
  rintro (_ | _)
  · exact ⟨_, .enter made, (closeAll_follows closeOrder).mono id .mine⟩
  · exact ⟨_, .late made, .late⟩

/-! ## The bootstrap -/

section Rules

variable {Q : Stage → Except Raised Unit → Prop} {f : Unit → ResourceProg Unit}
  {made : List Resource}

theorem construct_follows {r : Resource} (hok : Follows Builds Q (f ()) (.before (r :: made)))
    (herr : ∀ e, Q (.before made) (.error e)) :
    Follows Builds Q (construct r >>= f) (.before made) := by
  rintro (_ | e)
  · exact ⟨_, .made r, hok⟩
  · exact ⟨_, .unmade r e, herr e⟩

theorem connect_follows {r : Resource} (hr : r ∈ made)
    (hok : Follows Builds Q (f ()) (.before made)) (herr : ∀ e, Q (.before made) (.error e)) :
    Follows Builds Q (connect r >>= f) (.before made) := by
  rintro (_ | e)
  · exact ⟨_, .connect hr none, hok⟩
  · exact ⟨_, .connect hr (some e), herr e⟩

theorem other_follows (hok : Follows Builds Q (f ()) (.before made))
    (herr : ∀ e, Q (.before made) (.error e)) :
    Follows Builds Q (other >>= f) (.before made) := by
  rintro (_ | e)
  · exact ⟨_, .other made none, hok⟩
  · exact ⟨_, .other made (some e), herr e⟩

end Rules

/-- What the application has made of its resources. -/
def Needs (b : BootstrapArgs) (r : Resource) : Prop :=
  r = .llmProvider ∨ r = .mcpClient ∨ b.dbPath ≠ ""

/-- Phase 2 ends with nothing closed, and everything made if it returns. -/
inductive Built (b : BootstrapArgs) : Stage → Except Raised Unit → Prop
  | up {made : List Resource} (complete : ∀ r, r ∈ made ↔ Needs b r) : Built b (.before made) (.ok ())
  | failed (made : List Resource) (e : Raised) : Built b (.before made) (.error e)

/-- The last step, with everything made. -/
theorem last_follows {b : BootstrapArgs} {made : List Resource}
    (complete : ∀ r, r ∈ made ↔ Needs b r) : Follows Builds (Built b) other (.before made) := by
  rintro (_ | e)
  · exact ⟨_, .other made none, .up complete⟩
  · exact ⟨_, .other made (some e), .failed made e⟩

theorem build_follows (b : BootstrapArgs) : Follows Builds (Built b) (build b) (.before []) := by
  rw [build]
  refine construct_follows ?_ (.failed _)
  refine construct_follows ?_ (.failed _)
  refine connect_follows List.mem_cons_self ?_ (.failed _)
  refine other_follows ?_ (.failed _)
  by_cases hdb : b.dbPath = ""
  · have complete : ∀ r, r ∈ [Resource.mcpClient, .llmProvider] ↔ Needs b r := by
      intro r
      simp [Needs, hdb, or_comm]
    simp only [hdb, ne_eq, not_true_eq_false, if_false, true_and]
    split
    · exact .failed _ _
    · refine other_follows ?_ (.failed _)
      split
      · exact .failed _ _
      · exact last_follows complete
  · simp only [hdb, ne_eq, not_false_eq_true, if_true, false_and, if_false]
    refine construct_follows ?_ (.failed _)
    refine construct_follows ?_ (.failed _)
    refine construct_follows ?_ (.failed _)
    refine construct_follows ?_ (.failed _)
    refine connect_follows List.mem_cons_self ?_ (.failed _)
    refine other_follows ?_ (.failed _)
    refine other_follows ?_ (.failed _)
    refine last_follows fun r => ?_
    simp only [Needs, ne_eq, hdb, not_false_eq_true, or_true, iff_true]
    cases r <;> decide

/-- How `bootstrap_app` ends. -/
inductive Booted (b : BootstrapArgs) : Stage → Except Raised Unit → Prop
  | up {made : List Resource} (complete : ∀ r, r ∈ made ↔ Needs b r) :
      Booted b (.before made) (.ok ())
  /-- before phase 2 -/
  | early (e : Raised) : Booted b (.before []) (.error e)
  /-- rolled back -/
  | down {p : Stage} {out : Except Raised Unit} (h : Closed p out) (e : Raised) :
      Booted b p (.error e)

/-- `bootstrap_app` obeys its protocol. -/
theorem bootstrapApp_follows (b : BootstrapArgs) :
    Follows Builds (Booted b) (bootstrapApp b) (.before []) := by
  rw [bootstrapApp]
  refine other_follows ?_ .early
  cases b.validate with
  | error e => exact .early e
  | ok _ =>
    refine other_follows ?_ .early
    refine Follows.bind (Q := fun p out => ∃ out', out = .ok out' ∧ Built b p out') ?_ ?_
      (.attempt ((build_follows b).mono id fun h => ⟨_, rfl, h⟩))
    · rintro p _ ⟨_, ⟨⟩, hbuilt⟩
      cases hbuilt with
      | up complete => exact .up complete
      | failed made e =>
        refine Follows.bind ?_ ?_ ((close_follows made).mono .closes id)
        · exact fun h => .down h e
        · exact fun h => .down h _
    · rintro p e ⟨_, ⟨⟩, -⟩

/-! ## Taking turns -/

/-- The resources that some events try to close, in their order, and what is raised. -/
def closings : List (Event ResourceOp ResourceOp.Res) → List (Resource × Option Raised)
  | [] => []
  | ⟨.close r, x⟩ :: es => (r, x) :: closings es
  | _ :: es => closings es

/-- One of them was ended by what is no `Exception`. -/
def CutShort (tried : List (Resource × Option Raised)) : Prop :=
  ∃ x ∈ tried, ∃ e, x.2 = some e ∧ e.isException = false

/-- What was tried and what of the rest is owned, one after the other, is what is owned. -/
def Turn (owned : Resource → Bool) (tried : List (Resource × Option Raised))
    (rest : List Resource) : Prop :=
  tried.map Prod.fst ++ rest.filter owned = closeOrder.filter owned

section Turns

variable {owned : Resource → Bool} {tried : List (Resource × Option Raised)} {r : Resource}
  {rest : List Resource}

theorem Turn.enter : Turn owned [] closeOrder := rfl

theorem Turn.skip (h : Turn owned tried (r :: rest)) (hr : owned r = false) :
    Turn owned tried rest := by
  rwa [Turn, List.filter_cons_of_neg (by simp [hr])] at h

theorem Turn.close (h : Turn owned tried (r :: rest)) (hr : owned r = true) (x : Option Raised) :
    Turn owned (tried ++ [(r, x)]) rest := by
  rw [Turn, List.filter_cons_of_pos hr] at h
  rw [Turn, List.map_append, List.append_assoc]
  exact h

/-- What was tried was tried in turn. -/
theorem Turn.isPrefix (h : Turn owned tried rest) :
    tried.map Prod.fst <+: closeOrder.filter owned := ⟨_, h⟩

theorem Turn.complete (h : Turn owned tried []) : tried.map Prod.fst = closeOrder.filter owned := by
  rwa [Turn, List.filter_nil, List.append_nil] at h

end Turns

/-- A move of `close` tries what its event tries. -/
theorem Closes.tried {p q : Stage} {o : ResourceOp} {x : o.Res} (h : Closes p o x q) :
    q.tried = p.tried ++ closings [⟨o, x⟩] := by
  cases h <;> simp [Stage.tried, closings]

theorem closings_cons (e : Event ResourceOp ResourceOp.Res)
    (es : List (Event ResourceOp ResourceOp.Res)) :
    closings (e :: es) = closings [e] ++ closings es := by
  obtain ⟨o, x⟩ := e
  cases o <;> rfl

theorem Builds.tried {p q : Stage} {o : ResourceOp} {x : o.Res} (h : Builds p o x q) :
    q.tried = p.tried ++ closings [⟨o, x⟩] := by
  cases h with
  | closes move => exact move.tried
  | _ => rfl

/-- Along a path, what was tried is what the events have tried. -/
theorem tried_of_path {p q : Stage} {es : List (Event ResourceOp ResourceOp.Res)}
    (h : Path Builds p es q) : q.tried = p.tried ++ closings es := by
  induction h with
  | nil p => exact (List.append_nil _).symm
  | @cons _ _ _ o x es move _ ih =>
    rw [ih, move.tried, List.append_assoc, ← closings_cons]

/-! ## The rollback -/

/-- Whatever is in use is owned, and to be closed yet, or its closing has failed. -/
def Pending (s : ApplicationResources) (tried : List (Resource × Option Raised))
    (rest : List Resource) : Prop :=
  ∀ r, s.live r = true → s.owned r = true ∧ (r ∈ rest ∨ ∃ e, (r, some e) ∈ tried)

/-- What is known of the resources at a stage of a bootstrap. -/
def Tracks : Stage → ApplicationResources → Prop
  | .before made, s =>
    (∀ r, s.owned r = true ↔ r ∈ made) ∧ (∀ r, s.live r = true → r ∈ made) ∧ s.closed = false
  | .late, _ => False
  | .closing tried rest, s => Turn s.owned tried rest ∧ Pending s tried rest
  | .trying tried r rest, s =>
    s.owned r = true ∧ Turn s.owned tried (r :: rest) ∧ Pending s tried (r :: rest)
  | .cut tried, s => tried.map Prod.fst <+: closeOrder.filter s.owned ∧ CutShort tried

/-- A resource that is closed is in use no longer, or its closing has failed. -/
theorem Pending.close {s : ApplicationResources} {tried : List (Resource × Option Raised)}
    {r : Resource} {rest : List Resource} (h : Pending s tried (r :: rest))
    (env : ResourceChoice) :
    Pending (s.setLive r (s.live r && env.raised.isSome && env.live)) (tried ++ [(r, env.raised)])
      rest := by
  intro r' hr'
  rw [ApplicationResources.setLive_live] at hr'
  by_cases hr : r' = r
  · subst hr
    simp only [if_true, Bool.and_eq_true] at hr'
    obtain ⟨⟨hlive, hraised⟩, -⟩ := hr'
    obtain ⟨e, he⟩ := Option.isSome_iff_exists.mp hraised
    exact ⟨(h r' hlive).1, .inr ⟨e, by simp [he]⟩⟩
  · rw [if_neg hr] at hr'
    obtain ⟨howned, hmem⟩ := h r' hr'
    refine ⟨howned, hmem.imp (fun hmem => (List.mem_cons.mp hmem).resolve_left hr) ?_⟩
    exact fun ⟨e, he⟩ => ⟨e, List.mem_append_left _ he⟩

theorem Closes.tracks {p q : Stage} {o : ResourceOp} {x : o.Res} {env : ResourceChoice}
    {s s' : ApplicationResources} (hp : Tracks p s) (h : Closes p o x q)
    (he : o.exec env s = some (x, s')) : Tracks q s' := by
  cases h with
  | late made =>
    obtain ⟨hx, rfl⟩ := Prod.mk.inj (Option.some.inj he)
    exact absurd (hp.2.2.symm.trans hx) Bool.false_ne_true
  | enter made =>
    obtain ⟨-, rfl⟩ := Prod.mk.inj (Option.some.inj he)
    obtain ⟨howned, hlive, -⟩ := hp
    exact ⟨.enter, fun r hr => ⟨(howned r).mpr (hlive r hr), .inl (mem_closeOrder r)⟩⟩
  | skip r rest =>
    obtain ⟨hx, rfl⟩ := Prod.mk.inj (Option.some.inj he)
    obtain ⟨hturn, hpending⟩ := hp
    refine ⟨hturn.skip hx, fun r' hr' => ?_⟩
    obtain ⟨howned, hmem⟩ := hpending r' hr'
    refine ⟨howned, hmem.imp_left fun hmem => (List.mem_cons.mp hmem).resolve_left ?_⟩
    rintro rfl
    exact absurd (howned.symm.trans hx) Bool.true_eq_false.mp
  | mine r rest =>
    obtain ⟨hx, rfl⟩ := Prod.mk.inj (Option.some.inj he)
    exact ⟨hx, hp⟩
  | close logged =>
    obtain ⟨rfl, rfl⟩ := Prod.mk.inj (Option.some.inj he)
    obtain ⟨howned, hturn, hpending⟩ := hp
    exact ⟨hturn.close howned env.raised, hpending.close env⟩
  | @cut tried r rest e fatal =>
    obtain ⟨-, rfl⟩ := Prod.mk.inj (Option.some.inj he)
    obtain ⟨howned, hturn, -⟩ := hp
    refine ⟨?_, ⟨(r, some e), by simp, e, rfl, fatal⟩⟩
    exact (hturn.close howned (some e)).isPrefix

theorem Builds.tracks {p q : Stage} {o : ResourceOp} {x : o.Res} {env : ResourceChoice}
    {s s' : ApplicationResources} (hp : Tracks p s) (h : Builds p o x q)
    (he : o.exec env s = some (x, s')) : Tracks q s' := by
  cases h with
  | closes move => exact move.tracks hp he
  | other made x =>
    obtain ⟨-, rfl⟩ := Prod.mk.inj (Option.some.inj he)
    exact hp
  | unmade r e =>
    obtain ⟨hx, rfl⟩ := Prod.mk.inj (Option.some.inj he)
    rw [hx]
    exact hp
  | made r =>
    obtain ⟨hx, rfl⟩ := Prod.mk.inj (Option.some.inj he)
    obtain ⟨howned, hlive, hopen⟩ := hp
    rw [hx]
    refine ⟨fun r' => ?_, fun r' hr' => ?_, hopen⟩
    · rw [if_neg (by simp), ApplicationResources.own_owned]
      by_cases hr : r' = r
      · simp [hr]
      · simp [hr, howned]
    · rw [if_neg (by simp), ApplicationResources.own_live] at hr'
      by_cases hr : r' = r
      · simp [hr]
      · rw [if_neg hr] at hr'
        exact List.mem_cons_of_mem _ (hlive r' hr')
  | @connect made r here x =>
    obtain ⟨-, rfl⟩ := Prod.mk.inj (Option.some.inj he)
    obtain ⟨howned, hlive, hopen⟩ := hp
    refine ⟨howned, fun r' hr' => ?_, hopen⟩
    rw [ApplicationResources.setLive_live] at hr'
    by_cases hr : r' = r
    · exact hr ▸ here
    · rw [if_neg hr] at hr'
      exact hlive r' hr'

/-- What was made is closed in turn, all of it unless a `close` was ended by what is no
`Exception`; and then nothing is in use but what could not be closed. -/
structure RolledBack (s : ApplicationResources) (tried : List (Resource × Option Raised)) :
    Prop where
  ordered : tried.map Prod.fst <+: closeOrder.filter s.owned
  complete : ¬ CutShort tried → tried.map Prod.fst = closeOrder.filter s.owned
  released : ¬ CutShort tried → ∀ r, s.live r = true → ∃ e, (r, some e) ∈ tried

/-- **The rollback.** In every run of `bootstrap_app`, with any arguments and whatever raises
where, also while it cleans up: if it returns, nothing was closed, and the application owns
everything that was made; if it raises, everything that was made was rolled back. -/
theorem bootstrap_rolls_back (b : BootstrapArgs) {es : List (Event ResourceOp ResourceOp.Res)}
    {out : Except Raised Unit} {s : ApplicationResources}
    (h : Runs ResourceOp.exec (bootstrapApp b) .new es out s) :
    (out = .ok () → closings es = [] ∧ s.closed = false ∧
      ∀ r, s.owned r = true ↔ Needs b r) ∧
    ∀ e, out = .error e → RolledBack s (closings es) := by
  have hstart : Tracks (.before []) .new :=
    ⟨fun r => by simp [ApplicationResources.new], nofun, rfl⟩
  obtain ⟨q, hpath, hend, htracks⟩ :=
    Runs.carries (J := Tracks) (fun hp move he => move.tracks hp he) h (bootstrapApp_follows b)
      hstart
  have htried : q.tried = closings es := tried_of_path hpath
  cases hend with
  | up complete =>
    obtain ⟨howned, -, hopen⟩ := htracks
    exact ⟨fun _ => ⟨htried.symm, hopen, fun r => (howned r).trans (complete r)⟩, nofun⟩
  | early e =>
    refine ⟨nofun, fun _ _ => ?_⟩
    obtain ⟨howned, hlive, -⟩ := htracks
    have hnone : closeOrder.filter s.owned = [] :=
      List.filter_eq_nil_iff.mpr fun r _ hr => List.not_mem_nil ((howned r).mp hr)
    rw [← htried]
    exact ⟨List.nil_prefix, fun _ => hnone.symm, fun _ r hr => absurd (hlive r hr) List.not_mem_nil⟩
  | down hclosed e =>
    refine ⟨nofun, fun _ _ => ?_⟩
    rw [← htried]
    cases hclosed with
    | late => exact htracks.elim
    | mine hmine =>
      cases hmine with
      | reached tried =>
        obtain ⟨hturn, hpending⟩ := htracks
        exact ⟨hturn.isPrefix, fun _ => hturn.complete, fun _ r hr =>
          (hpending r hr).2.resolve_left List.not_mem_nil⟩
      | cut tried e' =>
        obtain ⟨hordered, hcut⟩ := htracks
        exact ⟨hordered, fun hno => absurd hcut hno, fun hno => absurd hcut hno⟩

/-- The event store cannot be connected, nor the client disconnected. -/
def failingEventStore : ResourceOp → ResourceChoice
  | .connect .eventStore => ⟨some .exception, true⟩
  | .close .mcpClient => ⟨some .exception, true⟩
  | _ => ⟨none, false⟩

/-- Everything was tried, and nothing was cut short. -/
def triedAll (tried : List (Resource × Option Raised)) : Bool :=
  tried.map Prod.fst = closeOrder && tried.all fun x => x.2.all Raised.isException

theorem not_cutShort_of_triedAll {tried : List (Resource × Option Raised)}
    (h : triedAll tried = true) : ¬ CutShort tried := by
  rintro ⟨⟨r, x⟩, hx, e, rfl, he⟩
  have := List.all_eq_true.mp ((Bool.and_eq_true _ _).mp h).2 _ hx
  rw [Option.all_some, he] at this
  cases this

/-- Everything is closed, and what is still in use could not be. -/
theorem failed_connect_rolled_back :
    ∃ es e s, Runs ResourceOp.exec (bootstrapApp ⟨"a.db", "", true, "TOKEN", "t", some .other⟩)
        .new es (.error e) s ∧
      triedAll (closings es) = true ∧
      ∀ r, s.live r = true → ∃ e, (r, some e) ∈ closings es := by
  have hcomputed : ((runAlone ResourceOp.exec failingEventStore 40
      (bootstrapApp ⟨"a.db", "", true, "TOKEN", "t", some .other⟩) .new).map fun x =>
        x.2.1.toOption.isNone && triedAll (closings x.1)).getD false = true := rfl
  cases hrun : runAlone ResourceOp.exec failingEventStore 40
      (bootstrapApp ⟨"a.db", "", true, "TOKEN", "t", some .other⟩) .new with
  | none => rw [hrun] at hcomputed; cases hcomputed
  | some x =>
    obtain ⟨es, out, s⟩ := x
    rw [hrun] at hcomputed
    obtain ⟨hout, htried⟩ := (Bool.and_eq_true _ _).mp hcomputed
    cases out with
    | ok a => cases hout
    | error e =>
      have hback := (bootstrap_rolls_back _ (runs_of_runAlone hrun)).2 e rfl
      exact ⟨es, e, s, runs_of_runAlone hrun, htried,
        hback.released (not_cutShort_of_triedAll htried)⟩

/-! ## The shutdown -/

/-- Calls of `close`. -/
def shutdown :
    Machine ResourceOp ResourceOp.Res Raised Unit Unit ResourceChoice ApplicationResources :=
  ⟨ResourceOp.exec, fun _ => close⟩

/-- A line of the history. -/
abbrev Line : Type := Entry Unit ResourceChoice ResourceOp ResourceOp.Res

/-- They come at any time. -/
abbrev anyTime : Discipline ApplicationResources Unit Line := .free fun _ => True

/-- What was tried to be closed in a history, the first one first. -/
def closingsOf (h : List Line) : List (Resource × Option Raised) :=
  closings ((h.map fun e => ⟨e.op, e.res⟩).reverse)

/-- The call found the flag down. -/
def Line.first : Line → Bool
  | ⟨_, _, .enter, _, closed⟩ => !closed
  | _ => false

theorem closings_append (es es' : List (Event ResourceOp ResourceOp.Res)) :
    closings (es ++ es') = closings es ++ closings es' := by
  induction es with
  | nil => rfl
  | cons e es ih =>
    rw [List.cons_append, closings_cons, ih, closings_cons e es, List.append_assoc]

theorem closingsOf_cons (e : Line) (h : List Line) :
    closingsOf (e :: h) = closingsOf h ++ closings [⟨e.op, e.res⟩] := by
  rw [closingsOf, List.map_cons, List.reverse_cons, closings_append]
  rfl

/-- The call is closing. -/
def Stage.Closing : Stage → Prop
  | closing _ _ => True
  | trying _ _ _ => True
  | _ => False

section Outline

variable (s₀ : ApplicationResources)

/-- What holds at any time: while the flag is down nothing was closed, nor if it was up at first. -/
structure InTurn (s : ApplicationResources) (h : List Line) : Prop where
  owned : s.owned = s₀.owned
  ordered : (closingsOf h).map Prod.fst <+: closeOrder.filter s₀.owned
  flag : s.closed = false → s₀.closed = false ∧ closingsOf h = []
  never : s₀.closed = true → closingsOf h = []

/-- The flag was raised in this run. -/
def Raises (s : ApplicationResources) : Prop := s₀.closed = false ∧ s.closed = true

/-- What a call of `close` knows. -/
def Stands (s : ApplicationResources) (h : List Line) (i : ℕ) : Stage → Prop
  | .closing tried rest => Raises s₀ s ∧ closingsOf h = tried ∧ Turn s₀.owned tried rest
  | .trying tried r rest =>
    Raises s₀ s ∧ closingsOf h = tried ∧ s₀.owned r = true ∧ Turn s₀.owned tried (r :: rest)
  | .cut _ => True
  | _ => ∀ e ∈ h, e.tid = i → e.first = false

variable {s₀}

/-- A move that tries nothing, and leaves what is owned as it is. -/
theorem InTurn.quiet {s s' : ApplicationResources} {h : List Line} {e : Line}
    (hinv : InTurn s₀ s h) (htried : closings [⟨e.op, e.res⟩] = []) (howned : s'.owned = s.owned)
    (hflag : s'.closed = false → s.closed = false) : InTurn s₀ s' (e :: h) := by
  have hsame : closingsOf (e :: h) = closingsOf h := by
    rw [closingsOf_cons, htried, List.append_nil]
  refine ⟨howned.trans hinv.owned, ?_, fun h => ?_, fun h => ?_⟩
  · rw [hsame]
    exact hinv.ordered
  · rw [hsame]
    exact hinv.flag (hflag h)
  · rw [hsame]
    exact hinv.never h

/-- A resource is tried, in turn. -/
theorem InTurn.tries {s s' : ApplicationResources} {h : List Line} {e : Line}
    {tried : List (Resource × Option Raised)} {r : Resource} {rest : List Resource}
    {x : Option Raised} (hinv : InTurn s₀ s h) (hraised : Raises s₀ s)
    (hturn : Turn s₀.owned (tried ++ [(r, x)]) rest)
    (htried : closingsOf (e :: h) = tried ++ [(r, x)]) (howned : s'.owned = s.owned)
    (hflag : s'.closed = s.closed) : InTurn s₀ s' (e :: h) where
  owned := howned.trans hinv.owned
  ordered := htried ▸ hturn.isPrefix
  flag hdown := absurd (hdown.symm.trans (hflag.trans hraised.2)) Bool.false_ne_true
  never hup := absurd (hraised.1.symm.trans hup) Bool.false_ne_true

/-- A move keeps what holds at any time, and leads from what is known to what is known. -/
theorem Closes.stands {s s' : ApplicationResources} {h : List Line} {i : ℕ} {p q : Stage}
    {o : ResourceOp} {x : o.Res} {env : ResourceChoice} (hinv : InTurn s₀ s h)
    (hp : Stands s₀ s h i p) (move : Closes p o x q) (he : o.exec env s = some (x, s')) :
    InTurn s₀ s' (⟨i, (), o, env, x⟩ :: h) ∧ Stands s₀ s' (⟨i, (), o, env, x⟩ :: h) i q := by
  cases move with
  | late made =>
    obtain ⟨hx, rfl⟩ := Prod.mk.inj (Option.some.inj he)
    refine ⟨hinv.quiet rfl rfl nofun, fun e he htid => ?_⟩
    rcases List.mem_cons.mp he with rfl | he
    · rfl
    · exact hp e he htid
  | enter made =>
    obtain ⟨hx, rfl⟩ := Prod.mk.inj (Option.some.inj he)
    obtain ⟨hstart, hnone⟩ := hinv.flag hx
    exact ⟨hinv.quiet rfl rfl nofun, ⟨hstart, rfl⟩, by rw [closingsOf_cons, hnone]; rfl, .enter⟩
  | skip r rest =>
    obtain ⟨hx, rfl⟩ := Prod.mk.inj (Option.some.inj he)
    obtain ⟨hraised, htried, hturn⟩ := hp
    rw [hinv.owned] at hx
    exact ⟨hinv.quiet rfl rfl id, hraised, by rw [closingsOf_cons, htried]; exact List.append_nil _,
      hturn.skip hx⟩
  | mine r rest =>
    obtain ⟨hx, rfl⟩ := Prod.mk.inj (Option.some.inj he)
    obtain ⟨hraised, htried, hturn⟩ := hp
    rw [hinv.owned] at hx
    exact ⟨hinv.quiet rfl rfl id, hraised, by rw [closingsOf_cons, htried]; exact List.append_nil _,
      hx, hturn⟩
  | @close tried r rest x logged =>
    obtain ⟨-, rfl⟩ := Prod.mk.inj (Option.some.inj he)
    obtain ⟨hraised, htried, howned, hturn⟩ := hp
    have hturn' := hturn.close howned x
    have htried' : closingsOf (⟨i, (), .close r, env, x⟩ :: h) = tried ++ [(r, x)] := by
      rw [closingsOf_cons, htried]
      rfl
    exact ⟨hinv.tries hraised hturn' htried' rfl rfl, hraised, htried', hturn'⟩
  | @cut tried r rest e fatal =>
    obtain ⟨-, rfl⟩ := Prod.mk.inj (Option.some.inj he)
    obtain ⟨hraised, htried, howned, hturn⟩ := hp
    have htried' : closingsOf (⟨i, (), .close r, env, some e⟩ :: h) = tried ++ [(r, some e)] := by
      rw [closingsOf_cons, htried]
      rfl
    exact ⟨hinv.tries hraised (hturn.close howned (some e)) htried' rfl rfl, trivial⟩

/-- Nobody begins to close while another call does. -/
theorem Closes.closing_of {s s' : ApplicationResources} {h : List Line} {j : ℕ} {p q p' : Stage}
    {o : ResourceOp} {x : o.Res} {env : ResourceChoice} (move : Closes p o x q)
    (he : o.exec env s = some (x, s')) (hp' : Stands s₀ s h j p') (hclosing : p'.Closing)
    (hq : q.Closing) : p.Closing := by
  cases move with
  | enter made =>
    have hdown : s.closed = false := (Prod.mk.inj (Option.some.inj he)).1
    have hup : s.closed = true := by
      cases p' with
      | closing tried rest => exact hp'.1.2
      | trying tried r rest => exact hp'.1.2
      | _ => exact hclosing.elim
    exact absurd (hdown.symm.trans hup) Bool.false_ne_true
  | late made => exact hq.elim
  | cut fatal => exact hq.elim
  | _ => trivial

/-- What a call knows is not disturbed by the others. -/
theorem Closes.others {s s' : ApplicationResources} {h : List Line} {i j : ℕ} {p q p' : Stage}
    {o : ResourceOp} {x : o.Res} {env : ResourceChoice} (move : Closes p o x q)
    (he : o.exec env s = some (x, s')) (hp' : Stands s₀ s h j p') (hne : i ≠ j)
    (hone : ¬ (p.Closing ∧ p'.Closing)) : Stands s₀ s' (⟨i, (), o, env, x⟩ :: h) j p' := by
  have hfirst (hall : ∀ e ∈ h, e.tid = j → e.first = false) :
      ∀ e ∈ (⟨i, (), o, env, x⟩ :: h : List Line), e.tid = j → e.first = false := by
    intro e he htid
    rcases List.mem_cons.mp he with rfl | he
    · exact absurd htid hne
    · exact hall e he htid
  have hidle (hclosing : p'.Closing) (hraised : Raises s₀ s) :
      Raises s₀ s' ∧ closingsOf (⟨i, (), o, env, x⟩ :: h) = closingsOf h := by
    cases move with
    | late made =>
      obtain ⟨-, rfl⟩ := Prod.mk.inj (Option.some.inj he)
      exact ⟨⟨hraised.1, rfl⟩, (closingsOf_cons _ _).trans (List.append_nil _)⟩
    | enter made => exact (Closes.closing_of (.enter made) he hp' hclosing trivial).elim
    | _ => exact absurd ⟨trivial, hclosing⟩ hone
  cases p' with
  | before made => exact hfirst hp'
  | late => exact hfirst hp'
  | closing tried rest =>
    obtain ⟨hraised, htried, hturn⟩ := hp'
    obtain ⟨hraised', hsame⟩ := hidle trivial hraised
    exact ⟨hraised', hsame.trans htried, hturn⟩
  | trying tried r rest =>
    obtain ⟨hraised, htried, hturn⟩ := hp'
    obtain ⟨hraised', hsame⟩ := hidle trivial hraised
    exact ⟨hraised', hsame.trans htried, hturn⟩
  | cut tried => trivial

variable (s₀)

/-- The outline of `close`: one call at most is closing. -/
def outline : shutdown.Outline anyTime (fun _ => Closes) (fun _ => .before []) where
  inv := InTurn s₀
  asserts s h i _ p := Stands s₀ s h i p
  owns _ p := p.Closing
  entry _ _ hnew := ⟨fun e he htid => absurd htid (hnew e he), id⟩
  step hinv hp move he _ := move.stands hinv hp he
  free _ _ hp' move he _ hne hone := move.others he hp' hne hone
  excl _ _ hp' move he hclosing hq := move.closing_of he hp' hclosing hq

end Outline

/-- **One after the other, and once.** In every run of any number of calls of `close` at the same
time, whatever raises where, on resources as a bootstrap has left them or as they may be: what is
owned is closed in turn, none of it twice, and none of it if the flag was up before; and when the
call that found the flag down has returned, each has had its turn. -/
theorem closed_in_turn (s : ApplicationResources) {c : shutdown.Config}
    (run : shutdown.Reach anyTime (Pool.init s) c) :
    (closingsOf c.hist).map Prod.fst <+: closeOrder.filter s.owned ∧
      (s.closed = true → closingsOf c.hist = []) ∧
      ∀ i, c.At i () (.ret ()) → (∃ e ∈ c.hist, e.tid = i ∧ Line.first e = true) →
        (closingsOf c.hist).map Prod.fst = closeOrder.filter s.owned := by
  have hcode : ∀ call, anyTime.start call →
      Follows Closes Closed (shutdown.code call) (.before []) := fun _ _ => close_follows []
  have hstart : InTurn s s [] := ⟨rfl, List.nil_prefix, fun h => ⟨h, rfl⟩, fun _ => rfl⟩
  have hinv := (outline s).sound_inv hcode hstart run
  refine ⟨hinv.ordered, hinv.never, fun i hat ⟨e, he, htid, hfirst⟩ => ?_⟩
  obtain ⟨p, hclosed, hstands⟩ := (outline s).sound_at hcode hstart run hat
  rw [follows_ret] at hclosed
  cases hclosed with
  | late =>
    have hlate : ∀ e ∈ c.hist, e.tid = i → Line.first e = false := hstands
    rw [hlate e he htid] at hfirst
    cases hfirst
  | mine hmine =>
    cases hmine with
    | reached tried =>
      obtain ⟨-, htried, hturn⟩ := hstands
      rw [htried]
      exact hturn.complete

/-- Both calls have returned; the first of them found the flag down. -/
def bothReturned (c : shutdown.Config) : Bool :=
  (match shutdown.result? c 0, shutdown.result? c 1 with
  | some (_, .ok _), some (_, .ok _) => true
  | _, _ => false) && c.hist.any fun e => e.tid = 0 && Line.first e

/-- Two calls at the same time, while the event store cannot be closed. -/
def twoShutdowns : List (Machine.Act Unit ResourceOp ResourceChoice) :=
  let choose : ResourceOp → ResourceChoice
    | .close .eventStore => ⟨some .exception, true⟩
    | _ => ⟨none, false⟩
  [.spawn (), .spawn (), .steps 0 3 choose, .steps 1 1 choose, .steps 0 20 choose]

/-- Everything is closed once. -/
theorem two_shutdowns_close_once : ∃ c : shutdown.Config,
    shutdown.Reach anyTime (Pool.init ⟨fun _ => true, false, fun _ => true⟩) c ∧
      bothReturned c = true ∧ (closingsOf c.hist).map Prod.fst = closeOrder := by
  have hrun : ((shutdown.run? anyTime twoShutdowns
      (Pool.init ⟨fun _ => true, false, fun _ => true⟩)).map bothReturned).getD false = true := rfl
  obtain ⟨c, hreach, hc⟩ := Machine.exists_reach_of_run? hrun
  refine ⟨c, hreach, hc, ?_⟩
  obtain ⟨hboth, hany⟩ := (Bool.and_eq_true _ _).mp hc
  obtain ⟨e, he, hline⟩ := List.any_eq_true.mp hany
  obtain ⟨htid, hfirst⟩ := (Bool.and_eq_true _ _).mp hline
  split at hboth
  · rename_i hzero hone
    exact (closed_in_turn _ hreach).2.2 0 (Machine.at_of_result? hzero)
      ⟨e, he, of_decide_eq_true htid, hfirst⟩
  · cases hboth

end Lifecycle

end BankingAgent
