import BankingAgent.Orchestration
import BankingAgent.Search.Schedule

/-!
# What the validator accepts

`PlanValidator.validate` takes the fields of a plan as they come from the model, and may raise. The
planner goes on with a plan where it neither raises nor finds an error. Such a plan can be carried
out one step after the other, whatever its identifiers and dependencies are, as long as they can be
hashed and iterated. The order in which its sets happen to be gone through does not matter.

* `findErrors_eq_nil_iff` — the plans in which no error is found.
* `PlanValidator.Accepts.needs` — what a step of such a plan needs is another step of it.
* `accepted_iff_schedulable` — the plans that are accepted.
-/

namespace BankingAgent

open CycleSearch Traversal

variable {v : PlanValidator} {py : PyLib} {plan : ExecutionPlan} {step : PlanStep}
  {steps : List PlanStep} {graph : List (HashKey × List HashKey)} {frames : ℕ} {o : SetOrders}

/-! ## Steps as nodes -/

/-- The tools of the step can be gone through, none is forbidden, and the registry has them all. -/
def PlanValidator.Knows (v : PlanValidator) (step : PlanStep) : Prop :=
  ∃ tools, step.toolCandidates.elements = .ok tools ∧ ∀ tool ∈ tools,
    tool ∉ v.forbidden.map Json.str ∧
      ∀ registry, v.toolRegistry = some registry → (registry.get? tool).isSome = true

/-- The step names the value among its dependencies. -/
def PlanStep.Needs (step : PlanStep) (dep : Json) : Prop :=
  ∃ deps, step.dependencies.elements = .ok deps ∧ dep ∈ deps

/-- `a == b`, for values that can be hashed. -/
def PyLib.Same (py : PyLib) (a b : Json) : Prop := ∃ k, py.hash a = .ok k ∧ py.hash b = .ok k

/-- The nodes of the steps, in their order. -/
abbrev NodesOf (py : PyLib) : List PlanStep → List (HashKey × List HashKey) → Prop :=
  List.Forall₂ fun step node => step.node py = .ok node

theorem node_eq_ok_iff {node : HashKey × List HashKey} : step.node py = .ok node ↔
    py.hash step.stepId = .ok node.1 ∧ ∃ deps keys, step.dependencies.elements = .ok deps ∧
      List.Forall₂ (fun dep k => py.hash dep = .ok k) deps keys ∧ node.2 = keys.dedup := by
  simp only [PlanStep.node, bind_eq_ok_iff, mapM_eq_ok_iff]
  constructor
  · rintro ⟨id, hid, deps, hdeps, keys, hkeys, h⟩
    cases h
    exact ⟨hid, deps, keys, hdeps, hkeys, rfl⟩
  · rintro ⟨hid, deps, keys, hdeps, hkeys, h⟩
    exact ⟨_, hid, deps, hdeps, keys, hkeys, congrArg Except.ok (Prod.ext rfl h.symm)⟩

/-- What the node of a step leads to is what the step needs. -/
theorem mem_node_iff {node : HashKey × List HashKey} (h : step.node py = .ok node) {k : HashKey} :
    k ∈ node.2 ↔ ∃ dep, step.Needs dep ∧ py.hash dep = .ok k := by
  obtain ⟨-, deps, keys, hdeps, hkeys, hset⟩ := node_eq_ok_iff.mp h
  rw [hset, List.mem_dedup]
  constructor
  · intro hk
    obtain ⟨dep, hdep, hdk⟩ := exists_of_mem_right hkeys hk
    exact ⟨dep, ⟨deps, hdeps, hdep⟩, hdk⟩
  · rintro ⟨dep, ⟨deps', hdeps', hdep⟩, hdk⟩
    obtain rfl := Except.ok.inj (hdeps.symm.trans hdeps')
    obtain ⟨k', hk', hdk'⟩ := exists_of_mem_left hkeys hdep
    obtain rfl := Except.ok.inj (hdk.symm.trans hdk')
    exact hk'

/-- The identifiers of the nodes are those of the steps. -/
theorem NodesOf.ids (h : NodesOf py steps graph) :
    steps.mapM (fun step => py.hash step.stepId) = .ok (graph.map Prod.fst) := by
  rw [mapM_eq_ok_iff, List.forall₂_map_right_iff]
  exact h.imp fun _ _ hnode => (node_eq_ok_iff.mp hnode).1

/-! ## The search for cycles -/

/-- What is in the set of an item, if there is one. -/
theorem mem_getD_map_iff {α β : Type} {o : Option α} {f : α → List β} {b : β} :
    b ∈ (o.map f).getD [] ↔ ∃ a, o = some a ∧ b ∈ f a := by
  cases o <;> simp

/-- Where the identifiers are distinct, the search follows the dependencies. -/
theorem edge_eq_depends (hdistinct : (graph.map Prod.fst).Nodup) :
    Edge (nextNodes graph) (· ∈ nodeIds graph) =
      Schedule.Depends Prod.fst Prod.snd graph := by
  have hnext (a b : HashKey) : b ∈ nextNodes graph a ↔ ∃ node ∈ graph, node.1 = a ∧ b ∈ node.2 := by
    rw [nextNodes, mem_getD_map_iff]
    simp only [Schedule.find?_reverse_eq_some_iff hdistinct, and_assoc]
  funext a b
  simp only [Edge, Schedule.Depends, List.mem_dedup, List.mem_map, hnext, eq_iff_iff]
  constructor
  · rintro ⟨-, hb, hdep⟩
    exact ⟨hdep, hb⟩
  · rintro ⟨⟨node, hnode, hid, hdep⟩, hb⟩
    exact ⟨⟨node, hnode, hid⟩, hb, node, hnode, hid, hdep⟩

/-- Strings are joined, and nothing else. -/
theorem named_iff {cycle : List HashKey} {error : String} :
    (cycle.mapM HashKey.asText).map cycleError = .ok error ↔
      ∃ texts, cycle = texts.map HashKey.text ∧ error = cycleError texts := by
  have htexts (texts : List String) :
      cycle.mapM HashKey.asText = .ok texts ↔ cycle = texts.map HashKey.text := by
    rw [mapM_eq_ok_iff, ← List.forall₂_eq_eq_eq, List.forall₂_map_right_iff]
    refine ⟨.imp fun k s h => ?_, .imp fun k s h => ?_⟩
    · cases k with
      | text t => exact congrArg HashKey.text (Except.ok.inj h)
      | _ => cases h
    · rw [h]
      rfl
  simp only [← htexts]
  cases cycle.mapM HashKey.asText <;> simp [Except.map, eq_comm]

/-- Where `_detect_cycles` returns, the steps are nodes, the search returns, and each cycle that is
found has a name. -/
theorem detectCycles_eq_ok_iff {errors : List String} :
    detectCycles py frames o steps = .ok errors ↔ ∃ graph, NodesOf py steps graph ∧
      ∃ s, visitAll (o graph).next frames (o graph).roots (start (o graph).roots) = .ok s ∧
        List.Forall₂ (fun cycle error => ∃ texts, cycle = texts.map HashKey.text ∧
          error = cycleError texts) s.cycles errors := by
  simp only [detectCycles, bind_eq_ok_iff, mapM_eq_ok_iff]
  refine exists_congr fun graph => and_congr_right fun _ => ?_
  cases visitAll (o graph).next frames (o graph).roots (start (o graph).roots) with
  | error e => cases e <;> simp
  | ok s => simp only [mapM_eq_ok_iff, named_iff, Except.ok.injEq, exists_eq_left']

/-- **No cycle is reported** exactly where the steps are nodes without one. -/
theorem detectCycles_eq_nil_iff (hroom : steps.length ≤ frames) :
    detectCycles py frames o steps = .ok [] ↔ ∃ graph, NodesOf py steps graph ∧
      ∀ k, ¬ Relation.TransGen (Edge (nextNodes graph) (· ∈ nodeIds graph)) k k := by
  rw [detectCycles_eq_ok_iff]
  refine exists_congr fun graph => and_congr_right fun hgraph => ?_
  have hnodes : (nodeIds graph).length ≤ frames := by
    refine le_trans ?_ hroom
    rw [hgraph.length_eq, ← graph.length_map (f := Prod.fst)]
    exact (List.dedup_sublist _).length_le
  simp only [← visitAll_finds_none_iff (o graph) hnodes, List.forall₂_nil_right_iff]

/-! ## The other checks -/

/-- A tool raises no error exactly if it is not forbidden, and known. -/
theorem toolErrors_eq_nil_iff {tool : Json} : v.toolErrors py step tool = .ok [] ↔
    tool ∉ v.forbidden.map Json.str ∧
      ∀ registry, v.toolRegistry = some registry → (registry.get? tool).isSome = true := by
  rw [PlanValidator.toolErrors]
  split_ifs with hforbidden
  · simp [hforbidden]
  refine Iff.trans ?_ (and_iff_right hforbidden).symm
  cases v.toolRegistry with
  | none => simp
  | some registry =>
    simp only [Option.some.injEq, forall_eq']
    cases hget : (registry.get? tool).isSome with
    | false => cases py.hash tool <;> simp [Except.map]
    | true =>
      -- what the registry has is a string
      cases tool with
      | str name => simp [Except.map]
      | _ => cases hget

theorem candidateErrors_eq_nil_iff : v.candidateErrors py step = .ok [] ↔ v.Knows step := by
  simp only [PlanValidator.candidateErrors, bind_eq_ok_iff, PlanValidator.Knows,
    collect_eq_nil_iff, toolErrors_eq_nil_iff]

/-- The dependencies raise no error exactly if the step is not among them, and all are known. -/
theorem dependencyErrors_eq_nil_iff {ids : List HashKey} :
    dependencyErrors py ids step = .ok [] ↔
      (∃ id, py.hash step.stepId = .ok id ∧ py.holds id step.dependencies = .ok false) ∧
        ∃ deps, step.dependencies.elements = .ok deps ∧
          ∀ dep ∈ deps, ∃ k ∈ ids, py.hash dep = .ok k := by
  simp only [dependencyErrors, bind_eq_ok_iff, pure, Except.pure, Except.ok.injEq,
    List.append_eq_nil_iff, List.filterMap_eq_nil_iff]
  have hknown (deps : List Json) : (∀ dep ∈ deps,
      (if (py.hashKey? dep).any (· ∈ ids) = true then none
        else some s!"Step '{py.str step.stepId}' depends on unknown step '{py.str dep}'") = none) ↔
      ∀ dep ∈ deps, ∃ k ∈ ids, py.hash dep = .ok k := by
    refine forall₂_congr fun dep _ => ?_
    simp only [PyLib.hash_eq_ok_iff]
    cases py.hashKey? dep <;> simp
  constructor
  · rintro ⟨id, hid, onItself, hself, deps, hdeps, hnone, hall⟩
    cases onItself with
    | true => simp at hnone
    | false => exact ⟨⟨id, hid, hself⟩, deps, hdeps, (hknown deps).mp hall⟩
  · rintro ⟨⟨id, hid, hself⟩, deps, hdeps, hall⟩
    exact ⟨id, hid, false, hself, deps, hdeps, by simp, (hknown deps).mpr hall⟩

/-! ## The whole plan -/

/-- What the validator wants of a plan. -/
structure PlanValidator.Accepts (v : PlanValidator) (py : PyLib) (plan : ExecutionPlan) : Prop where
  nonempty : plan.steps ≠ []
  bounded : plan.steps.length ≤ v.maxSteps
  goal : py.strip plan.goal ≠ ""
  tools : ∀ step ∈ plan.steps, v.Knows step
  /-- as `in` sees it: of a string, the identifier is no part -/
  apart : ∀ step ∈ plan.steps,
    ∃ id, py.hash step.stepId = .ok id ∧ py.holds id step.dependencies = .ok false
  /-- in some order of the steps, each comes after those it depends on -/
  schedulable : ∃ graph, NodesOf py plan.steps graph ∧ (graph.map Prod.fst).Nodup ∧
    ∃ order, order.Perm graph ∧ Schedule.Runs Prod.fst Prod.snd [] order

/-- The dependencies of the steps are known exactly if those of the nodes are. -/
theorem NodesOf.known_iff (h : NodesOf py steps graph) :
    (∀ step ∈ steps, ∃ deps, step.dependencies.elements = .ok deps ∧
      ∀ dep ∈ deps, ∃ k ∈ graph.map Prod.fst, py.hash dep = .ok k) ↔
    ∀ node ∈ graph, ∀ k ∈ node.2, ∃ node' ∈ graph, node'.1 = k := by
  constructor
  · intro hknown node hnode k hk
    obtain ⟨step, hstep, hof⟩ := exists_of_mem_right h hnode
    obtain ⟨dep, ⟨deps, hdeps, hdep⟩, hdk⟩ := (mem_node_iff hof).mp hk
    obtain ⟨deps', hdeps', hall⟩ := hknown step hstep
    obtain rfl := Except.ok.inj (hdeps.symm.trans hdeps')
    obtain ⟨k', hk', hdk'⟩ := hall dep hdep
    obtain rfl := Except.ok.inj (hdk.symm.trans hdk')
    exact List.mem_map.mp hk'
  · intro hknown step hstep
    obtain ⟨node, hnode, hof⟩ := exists_of_mem_left h hstep
    obtain ⟨-, deps, keys, hdeps, hkeys, -⟩ := node_eq_ok_iff.mp hof
    refine ⟨deps, hdeps, fun dep hdep => ?_⟩
    obtain ⟨k, -, hdk⟩ := exists_of_mem_left hkeys hdep
    have hin := (mem_node_iff hof).mpr ⟨dep, ⟨deps, hdeps, hdep⟩, hdk⟩
    exact ⟨k, List.mem_map.mpr (hknown node hnode k hin), hdk⟩

/-- **No error is found** exactly in a plan that has a goal, whose steps are few enough and name
tools that are known, and that can be carried out. -/
theorem findErrors_eq_nil_iff (hroom : plan.steps.length ≤ frames) :
    v.findErrors py frames o plan = .ok [] ↔ v.Accepts py plan := by
  simp only [PlanValidator.findErrors, bind_eq_ok_iff]
  constructor
  · rintro ⟨ids, hids, toolErrors, htools, depErrors, hdeps, cycles, hcycles, h⟩
    simp only [pure, Except.pure, Except.ok.injEq, List.append_eq_nil_iff, ite_eq_right_iff,
      ite_eq_left_iff, List.cons_ne_nil, imp_false, not_not, not_lt] at h
    obtain ⟨⟨⟨⟨⟨⟨hcount, hbound⟩, hnodup⟩, rfl⟩, rfl⟩, rfl⟩, hgoal⟩ := h
    obtain ⟨graph, hgraph, hacyclic⟩ := (detectCycles_eq_nil_iff hroom).mp hcycles
    obtain rfl := Except.ok.inj (hids.symm.trans hgraph.ids)
    rw [edge_eq_depends hnodup] at hacyclic
    rw [collect_eq_nil_iff] at htools hdeps
    have hdeps' := fun step hstep => dependencyErrors_eq_nil_iff.mp (hdeps step hstep)
    exact
      { nonempty := fun hnil => hcount (by rw [hnil]; rfl)
        bounded := hbound
        goal := hgoal
        tools := fun step hstep => candidateErrors_eq_nil_iff.mp (htools step hstep)
        apart := fun step hstep => (hdeps' step hstep).1
        schedulable := ⟨graph, hgraph, hnodup, (Schedule.exists_runs_iff hnodup).mpr
          ⟨hgraph.known_iff.mp fun step hstep => (hdeps' step hstep).2, hacyclic⟩⟩ }
  · rintro ⟨hnonempty, hbound, hgoal, htools, hapart, graph, hgraph, hnodup, hruns⟩
    obtain ⟨hknown, hacyclic⟩ := (Schedule.exists_runs_iff hnodup).mp hruns
    refine ⟨_, hgraph.ids, [], collect_eq_nil_iff.mpr fun step hstep =>
      candidateErrors_eq_nil_iff.mpr (htools step hstep), [], collect_eq_nil_iff.mpr fun step hstep =>
      dependencyErrors_eq_nil_iff.mpr ⟨hapart step hstep, hgraph.known_iff.mpr hknown step hstep⟩,
      [], (detectCycles_eq_nil_iff hroom).mpr ⟨graph, hgraph, ?_⟩, ?_⟩
    · rw [edge_eq_depends hnodup]
      exact hacyclic
    · rw [if_neg (by simpa using hnonempty), if_neg (not_lt.mpr hbound), if_pos hnodup,
        if_neg hgoal]
      rfl

/-- A plan is valid if no error is found in it. -/
theorem valid_iff : (∃ result, v.validate py frames o plan = .ok result ∧ result.valid = true) ↔
    v.findErrors py frames o plan = .ok [] := by
  rw [PlanValidator.validate]
  cases v.findErrors py frames o plan with
  | error e => simp [bind, Except.bind]
  | ok errors => simp [bind, Except.bind, pure, Except.pure]

/-- A validator of the runtime accepts what it wants. -/
theorem AgentRuntime.accepts_of_validate {rt : AgentRuntime} {maxSteps : ℤ}
    {result : PlanValidation} (h : rt.validate maxSteps plan = .ok result)
    (hvalid : result.valid = true) :
    PlanValidator.Accepts ⟨rt.toolRegistry, maxSteps, []⟩ rt.py plan :=
  (findErrors_eq_nil_iff le_rfl).mp (valid_iff.mp ⟨result, h, hvalid⟩)

namespace PlanValidator.Accepts

/-- No two steps have the same identifier. -/
theorem distinct (h : v.Accepts py plan) : (plan.steps.map PlanStep.stepId).Nodup := by
  obtain ⟨graph, hgraph, hnodup, -⟩ := h.schedulable
  have hmap : (plan.steps.map PlanStep.stepId).map py.hash =
      (graph.map Prod.fst).map Except.ok := by
    rw [List.map_map, List.map_map]
    refine List.forall₂_eq_eq_eq ▸ ?_
    rw [List.forall₂_map_left_iff, List.forall₂_map_right_iff]
    exact hgraph.imp fun _ _ hnode => (node_eq_ok_iff.mp hnode).1
  refine .of_map py.hash ?_
  rw [hmap]
  exact hnodup.map fun _ _ => Except.ok.inj

/-- **What a step needs** is another step of the plan. -/
theorem needs (h : v.Accepts py plan) (hstep : step ∈ plan.steps) {dep : Json}
    (hneeds : step.Needs dep) :
    (∃ step' ∈ plan.steps, py.Same step'.stepId dep) ∧ ¬ py.Same step.stepId dep := by
  obtain ⟨graph, hgraph, hnodup, hruns⟩ := h.schedulable
  obtain ⟨hknown, hacyclic⟩ := (Schedule.exists_runs_iff hnodup).mp hruns
  obtain ⟨node, hnode, hof⟩ := exists_of_mem_left hgraph hstep
  obtain ⟨hid, deps, keys, hdeps, hkeys, -⟩ := node_eq_ok_iff.mp hof
  obtain ⟨deps', hdeps', hdep⟩ := hneeds
  obtain rfl := Except.ok.inj (hdeps.symm.trans hdeps')
  obtain ⟨k, -, hdk⟩ := exists_of_mem_left hkeys hdep
  have hin := (mem_node_iff hof).mpr ⟨dep, ⟨deps, hdeps, hdep⟩, hdk⟩
  obtain ⟨node', hnode', rfl⟩ := hknown node hnode k hin
  obtain ⟨step', hstep', hof'⟩ := exists_of_mem_right hgraph hnode'
  refine ⟨⟨step', hstep', _, (node_eq_ok_iff.mp hof').1, hdk⟩, ?_⟩
  rintro ⟨k, hk, hk'⟩
  -- otherwise the step would depend on itself
  obtain rfl := Except.ok.inj (hk.symm.trans hid)
  have hself := Except.ok.inj (hk'.symm.trans hdk)
  exact hacyclic node.1 (.single ⟨⟨node, hnode, rfl, hself ▸ hin⟩, node, hnode, rfl⟩)

end PlanValidator.Accepts

/-! ## Whatever the order of the sets -/

/-- **What is accepted**: in every order of its sets, with room for a nested call for each step,
the validator accepts exactly the plans it wants. -/
theorem accepted_iff_schedulable (v : PlanValidator) (py : PyLib) (frames : ℕ) (o : SetOrders)
    (plan : ExecutionPlan) (hroom : plan.steps.length ≤ frames) :
    (∃ result, v.validate py frames o plan = .ok result ∧ result.valid = true) ↔
      v.Accepts py plan :=
  valid_iff.trans (findErrors_eq_nil_iff hroom)

/-- The orders of the plan, from its end. -/
def reversedOrders : SetOrders := fun graph =>
  ⟨(nodeIds graph).reverse, fun id => (nextNodes graph id).reverse, List.reverse_perm _,
    fun _ => List.reverse_perm _⟩

/-- The tools of a transfer. -/
def transferTools : ToolRegistry where
  tools := [⟨"create_transfer_draft", .obj [], true, .medium⟩,
    ⟨"submit_transfer", .obj [], true, .critical⟩]
  nodup := List.nodup_cons.mpr ⟨by simp, List.nodup_singleton _⟩

/-- The steps are numbered, and stand in the wrong order. -/
def backwardPlan : ExecutionPlan where
  planId := "p"
  goal := "pay"
  requiredUserInputs := .arr []
  steps :=
    [⟨.int 2, .str "submit", .ofStrings ["submit_transfer"], .arr [.int 1], .str "high",
      "pending", 1⟩,
    ⟨.int 1, .str "draft", .ofStrings ["create_transfer_draft"], .arr [], .str "low",
      "pending", 1⟩]
  completionCriteria := .ofStrings ["status"]

/-- The plan can be carried out from its end, and is accepted. -/
theorem backwardPlan_accepted :
    ∃ result, PlanValidator.validate ⟨some transferTools, 15, ["delete_account"]⟩ demoPy 900
      reversedOrders backwardPlan = .ok result ∧ result.valid = true := by
  refine (accepted_iff_schedulable ⟨some transferTools, 15, ["delete_account"]⟩ demoPy 900
    reversedOrders backwardPlan (by decide)).mpr ?_
  exact
    { nonempty := by simp [backwardPlan]
      bounded := by decide
      goal := by decide
      tools := by
        refine List.forall_mem_cons.mpr ⟨⟨_, rfl, ?_⟩, List.forall_mem_singleton.mpr ⟨_, rfl, ?_⟩⟩
        · simp [transferTools, ToolRegistry.get?, ToolRegistry.get]
        · simp [transferTools, ToolRegistry.get?, ToolRegistry.get]
      apart := List.forall_mem_cons.mpr ⟨⟨_, rfl, rfl⟩, List.forall_mem_singleton.mpr ⟨_, rfl, rfl⟩⟩
      schedulable := by
        refine ⟨_, .cons rfl (.cons rfl .nil), ?_, _, .swap _ _ _, ?_⟩
        · decide
        · decide }

end BankingAgent
