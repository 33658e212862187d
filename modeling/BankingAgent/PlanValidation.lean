import BankingAgent.PlanAcceptance
import Mathlib.Logic.Function.Basic

/-!
# `_detect_cycles`, in every order of its sets

The identifiers of the steps and the dependencies of each are sets, and `_detect_cycles` goes
through them in whatever order they have. A cycle it finds is left gray, and `path.index` raises
when a later search comes to such a step: so it depends on the order whether the validator returns.

* `detect_cycles_exact` — what `_detect_cycles` returns.
* `validate_returns_iff` — the plans for which the validator returns in every order.
-/

namespace BankingAgent

open CycleSearch Traversal

variable {v : PlanValidator} {py : PyLib} {plan : ExecutionPlan} {step : PlanStep}
  {steps : List PlanStep} {graph : List (HashKey × List HashKey)} {frames : ℕ} {o : SetOrders}

/-! ## What `_detect_cycles` returns -/

/-- A step with the first identifier depends on one with the second. -/
def DependsOn (py : PyLib) (steps : List PlanStep) (id dep : HashKey) : Prop :=
  (∃ step ∈ steps, py.hash step.stepId = .ok id ∧ ∃ d, step.Needs d ∧ py.hash d = .ok dep) ∧
    ∃ step ∈ steps, py.hash step.stepId = .ok dep

/-- The nodes depend on each other as the steps do. -/
theorem NodesOf.depends_eq (h : NodesOf py steps graph) :
    Schedule.Depends Prod.fst Prod.snd graph = DependsOn py steps := by
  have hid {step : PlanStep} {node : HashKey × List HashKey} (hof : step.node py = .ok node)
      (k : HashKey) : py.hash step.stepId = .ok k ↔ node.1 = k := by
    rw [(node_eq_ok_iff.mp hof).1, Except.ok.injEq]
  funext id dep
  refine propext (Iff.symm (and_congr ?_ ?_))
  · exact exists_mem_iff_of_forall₂ h fun hof =>
      and_congr (hid hof id) (mem_node_iff hof).symm
  · exact exists_mem_iff_of_forall₂ h fun hof => hid hof dep

/-- The nodes are as distinct as the steps are. -/
theorem NodesOf.nodup_iff (h : NodesOf py steps graph) : (graph.map Prod.fst).Nodup ↔
    steps.Pairwise fun a b => ¬ py.Same a.stepId b.stepId := by
  induction h with
  | nil => simp
  | @cons step node steps graph hof hrest ih =>
    rw [List.map_cons, List.nodup_cons, List.pairwise_cons, ih]
    refine and_congr_left fun _ => ?_
    have hid := (node_eq_ok_iff.mp hof).1
    constructor
    · rintro hnew step' hstep' ⟨k, hk, hk'⟩
      obtain ⟨node', hnode', hof'⟩ := exists_of_mem_left hrest hstep'
      obtain rfl := Except.ok.inj (hid.symm.trans hk)
      have hsame := Except.ok.inj ((node_eq_ok_iff.mp hof').1.symm.trans hk')
      exact hnew (hsame ▸ List.mem_map_of_mem hnode')
    · intro hnew hmem
      obtain ⟨node', hnode', hsame⟩ := List.mem_map.mp hmem
      obtain ⟨step', hstep', hof'⟩ := exists_of_mem_right hrest hnode'
      exact hnew step' hstep' ⟨node.1, hid, hsame ▸ (node_eq_ok_iff.mp hof').1⟩

/-- **Cycle detection is exact**: if `_detect_cycles` returns, it returns something exactly if a step
depends on itself in the end, and every error names a cycle of the dependencies. -/
theorem detect_cycles_exact (py : PyLib) (frames : ℕ) (o : SetOrders) (steps : List PlanStep)
    (errors : List String)
    (hdistinct : steps.Pairwise fun a b => ¬ py.Same a.stepId b.stepId)
    (h : detectCycles py frames o steps = .ok errors) :
    (errors ≠ [] ↔ ∃ id, Relation.TransGen (DependsOn py steps) id id) ∧
      ∀ error ∈ errors, ∃ cycle, error = cycleError cycle ∧
        IsCycle (DependsOn py steps) (cycle.map HashKey.text) := by
  obtain ⟨graph, hgraph, s, hs, hnames⟩ := detectCycles_eq_ok_iff.mp h
  have hedge : Edge (o graph).next (· ∈ (o graph).roots) = DependsOn py steps := by
    rw [← hgraph.depends_eq, ← edge_eq_depends (hgraph.nodup_iff.mpr hdistinct)]
    funext a b
    exact propext ((o graph).edge_iff a b)
  obtain ⟨hexact, hcycles⟩ := visitAll_exact hs
  rw [hedge] at hexact hcycles
  constructor
  · rw [← hexact, ne_eq, ne_eq, ← List.length_eq_zero_iff, ← List.length_eq_zero_iff,
      hnames.length_eq]
  · intro error herror
    obtain ⟨cycle, hcycle, texts, rfl, rfl⟩ := exists_of_mem_right hnames herror
    exact ⟨texts, rfl, hcycles _ hcycle⟩

/-- A step with some dependencies. -/
def planStep (stepId : String) (dependencies : List String) : PlanStep :=
  { stepId := .str stepId, objective := .str "", toolCandidates := .arr [],
    dependencies := .ofStrings dependencies, riskLevel := .str "low", status := "pending",
    maxRetries := 1 }

/-- Two steps that depend on each other. -/
def loopSteps : List PlanStep := [planStep "1" ["2"], planStep "2" ["1"]]

theorem detect_cycles_loop :
    (["Circular dependency: 1 → 2 → 1"] ≠ [] ↔
      ∃ id, Relation.TransGen (DependsOn demoPy loopSteps) id id) ∧
      ∀ error ∈ ["Circular dependency: 1 → 2 → 1"], ∃ cycle, error = cycleError cycle ∧
        IsCycle (DependsOn demoPy loopSteps) (cycle.map HashKey.text) := by
  refine detect_cycles_exact demoPy 900 planOrders loopSteps _ ?_ rfl
  simp [loopSteps, planStep, PyLib.Same]

/-! ## Where the validator returns -/

/-- What the validator looks at before the search for cycles: the tools of the steps, which are
hashed unless they are forbidden, and the identifiers, which are looked for in the dependencies. -/
structure PlanValidator.Reads (v : PlanValidator) (py : PyLib) (plan : ExecutionPlan) : Prop where
  tools : ∀ step ∈ plan.steps, ∃ tools, step.toolCandidates.elements = .ok tools ∧
    ∀ tool ∈ tools, tool ∉ v.forbidden.map Json.str → v.toolRegistry.isSome = true →
      ∃ k, py.hash tool = .ok k
  ids : ∀ step ∈ plan.steps, ∃ id, py.hash step.stepId = .ok id ∧
    ∃ onItself, py.holds id step.dependencies = .ok onItself

/-- A tool is looked at without an error. -/
theorem toolErrors_returns_iff {tool : Json} : (∃ found, v.toolErrors py step tool = .ok found) ↔
    (tool ∉ v.forbidden.map Json.str → v.toolRegistry.isSome = true →
      ∃ k, py.hash tool = .ok k) := by
  rw [PlanValidator.toolErrors]
  split_ifs with hforbidden
  · simp [hforbidden]
  · cases v.toolRegistry with
    | none => simp
    | some registry => cases py.hash tool <;> simp [hforbidden, Except.map]

theorem candidateErrors_returns_iff : (∃ found, v.candidateErrors py step = .ok found) ↔
    ∃ tools, step.toolCandidates.elements = .ok tools ∧ ∀ tool ∈ tools,
      tool ∉ v.forbidden.map Json.str → v.toolRegistry.isSome = true →
        ∃ k, py.hash tool = .ok k := by
  have hcollect (tools : List Json) := (collect_returns_iff (f := v.toolErrors py step)
    (l := tools)).trans (forall₂_congr fun _ _ => toolErrors_returns_iff)
  simp only [PlanValidator.candidateErrors, bind_eq_ok_iff]
  constructor
  · rintro ⟨found, tools, htools, hfound⟩
    exact ⟨tools, htools, (hcollect tools).mp ⟨found, hfound⟩⟩
  · rintro ⟨tools, htools, hall⟩
    obtain ⟨found, hfound⟩ := (hcollect tools).mpr hall
    exact ⟨found, tools, htools, hfound⟩

theorem dependencyErrors_returns_iff {ids : List HashKey} :
    (∃ found, dependencyErrors py ids step = .ok found) ↔
      (∃ id, py.hash step.stepId = .ok id ∧
        ∃ onItself, py.holds id step.dependencies = .ok onItself) ∧
        ∃ deps, step.dependencies.elements = .ok deps := by
  simp only [dependencyErrors, bind_eq_ok_iff]
  constructor
  · rintro ⟨found, id, hid, onItself, hself, deps, hdeps, -⟩
    exact ⟨⟨id, hid, onItself, hself⟩, deps, hdeps⟩
  · rintro ⟨⟨id, hid, onItself, hself⟩, deps, hdeps⟩
    exact ⟨_, id, hid, onItself, hself, deps, hdeps, rfl⟩

/-- `_detect_cycles` returns if the search does, and finds cycles of strings only. -/
theorem detectCycles_returns_iff : (∃ errors, detectCycles py frames o steps = .ok errors) ↔
    ∃ graph, NodesOf py steps graph ∧
      ∃ s, visitAll (o graph).next frames (o graph).roots (start (o graph).roots) = .ok s ∧
        ∀ cycle ∈ s.cycles, ∀ id ∈ cycle, ∃ text, id = .text text := by
  have hnamed (cycle : List HashKey) : (∃ error : String, ∃ texts : List String,
      cycle = texts.map HashKey.text ∧ error = cycleError texts) ↔
        ∀ id ∈ cycle, ∃ text, id = .text text := by
    constructor
    · rintro ⟨-, texts, rfl, -⟩ id hid
      obtain ⟨text, -, rfl⟩ := List.mem_map.mp hid
      exact ⟨text, rfl⟩
    · intro h
      obtain ⟨texts, htexts⟩ := exists_forall₂_iff.mpr h
      rw [← List.forall₂_map_right_iff, List.forall₂_eq_eq_eq] at htexts
      exact ⟨_, texts, htexts, rfl⟩
  have hall (s : State HashKey) := (exists_forall₂_iff (l := s.cycles)).trans
    (forall₂_congr fun cycle _ => hnamed cycle)
  simp only [detectCycles_eq_ok_iff, ← hall]
  constructor
  · rintro ⟨errors, graph, hgraph, s, hs, hnames⟩
    exact ⟨graph, hgraph, s, hs, errors, hnames⟩
  · rintro ⟨graph, hgraph, s, hs, errors, hnames⟩
    exact ⟨errors, graph, hgraph, s, hs, hnames⟩

/-- **The validator returns** if it can read the plan, and `_detect_cycles` returns. -/
theorem exists_validate_iff : (∃ result, v.validate py frames o plan = .ok result) ↔
    v.Reads py plan ∧ ∃ errors, detectCycles py frames o plan.steps = .ok errors := by
  simp only [PlanValidator.validate, PlanValidator.findErrors, bind_eq_ok_iff]
  constructor
  · rintro ⟨result, errors, ⟨ids, hids, toolErrors, htools, depErrors, hdeps, cycles, hcycles, -⟩, -⟩
    have htools' := collect_returns_iff.mp ⟨_, htools⟩
    have hdeps' := collect_returns_iff.mp ⟨_, hdeps⟩
    exact ⟨⟨fun step hstep => candidateErrors_returns_iff.mp (htools' step hstep),
      fun step hstep => (dependencyErrors_returns_iff.mp (hdeps' step hstep)).1⟩, cycles, hcycles⟩
  · rintro ⟨⟨htools, hids⟩, cycles, hcycles⟩
    obtain ⟨graph, hgraph, -⟩ := detectCycles_eq_ok_iff.mp hcycles
    obtain ⟨toolErrors, htools⟩ := collect_returns_iff.mpr fun step hstep =>
      candidateErrors_returns_iff.mpr (htools step hstep)
    obtain ⟨depErrors, hdeps⟩ : ∃ found,
        collect (dependencyErrors py (graph.map Prod.fst)) plan.steps = .ok found := by
      refine collect_returns_iff.mpr fun step hstep =>
        dependencyErrors_returns_iff.mpr ⟨hids step hstep, ?_⟩
      obtain ⟨node, -, hof⟩ := exists_of_mem_left hgraph hstep
      obtain ⟨-, deps, keys, hdeps, -⟩ := node_eq_ok_iff.mp hof
      exact ⟨deps, hdeps⟩
    exact ⟨_, _, ⟨_, hgraph.ids, _, htools, _, hdeps, _, hcycles, rfl⟩, rfl⟩

/-- **The validator returns** in every order of its sets exactly if it can read the plan, no step
outside a cycle depends on a step in it, no chain of distinct steps is longer than the calls there is
room for, and every step that depends on itself in the end has a string for its identifier. -/
theorem validate_returns_iff (v : PlanValidator) (py : PyLib) (frames : ℕ) (plan : ExecutionPlan) :
    (∀ o : SetOrders, ∃ result, v.validate py frames o plan = .ok result) ↔
      v.Reads py plan ∧ ∃ graph, NodesOf py plan.steps graph ∧
        (SealedCycles (nextNodes graph) (· ∈ nodeIds graph) ∧
          ∀ path, SimplePath (nextNodes graph) (· ∈ nodeIds graph) path → path.length ≤ frames) ∧
        ∀ id, Relation.TransGen (Edge (nextNodes graph) (· ∈ nodeIds graph)) id id →
          ∃ text, id = .text text := by
  simp only [exists_validate_iff, detectCycles_returns_iff, ← visitAll_finds_only_iff]
  constructor
  · intro h
    obtain ⟨hreads, graph, hgraph, -⟩ := h planOrders
    refine ⟨hreads, graph, hgraph, fun o => ?_⟩
    -- these orders at the graph of the plan, and any at the others
    obtain ⟨-, graph', hgraph', hfound⟩ := h (Function.update planOrders graph o)
    have hsame := (mapM_eq_ok_iff.mpr hgraph).symm.trans (mapM_eq_ok_iff.mpr hgraph')
    obtain rfl := Except.ok.inj hsame
    rwa [Function.update_self] at hfound
  · rintro ⟨hreads, graph, hgraph, h⟩ o
    exact ⟨hreads, graph, hgraph, h (o graph)⟩

/-- Two steps that depend on each other, and one that depends on the first. -/
def stuckPlan : ExecutionPlan :=
  { planId := "p", goal := "pay", requiredUserInputs := .arr [], completionCriteria := .arr [],
    steps := [planStep "1" ["2"], planStep "2" ["1"], planStep "3" ["1"]] }

/-- The search from the third step comes to the first, which is gray but not on its path. -/
theorem validate_stuck :
    PlanValidator.validate ⟨none, 15, []⟩ demoPy 900 planOrders stuckPlan = .error .valueError ∧
      ¬ ∀ o : SetOrders, ∃ result,
        PlanValidator.validate ⟨none, 15, []⟩ demoPy 900 o stuckPlan = .ok result := by
  have hstuck : PlanValidator.validate ⟨none, 15, []⟩ demoPy 900 planOrders stuckPlan =
      .error .valueError := rfl
  refine ⟨hstuck, fun h => ?_⟩
  obtain ⟨result, hresult⟩ := h planOrders
  rw [hstuck] at hresult
  cases hresult

end BankingAgent
