import BankingAgent.Agent
import BankingAgent.PlanAcceptance

/-!
# The turns of a plan

`_execute_planner` goes through the steps of a plan in the order of the list. A step has a
turn: one attempt, and a second one if the verification of the first asks for it. The
verification of the second attempt is made and then forgotten, unless it raises.

* `executeSteps_trace` — what the loop may have done, and what it has done when it is through.
* `Turns.verifiedIn_iff` — after the loop a step is verified unless its second attempt has failed.
* `Loop.dispatch` — what is verified at the call of a tool.
-/

namespace BankingAgent

open Async

variable {rt : AgentRuntime} {plan : ExecutionPlan} {step : PlanStep}
  {es : List (Event Op Op.Res)}

/-! ## What a trace says about a step -/

/-- The answer of a tool. -/
abbrev ToolAnswer : Type := Except Exn ToolResult

/-- The server has carried the call out. -/
def succeeded : ToolAnswer → Bool
  | .ok result => result.success
  | .error _ => false

/-- The verification of the answer of the step's tool. -/
def AgentRuntime.verdict (rt : AgentRuntime) (plan : ExecutionPlan) (step : PlanStep)
    (answer : ToolAnswer) : Except Exn VerificationResult := do
  let toolName ← step.toolCandidates.first
  verify rt.py step (step.result toolName answer) plan

/-- The answer passes the verification. -/
def Passes (rt : AgentRuntime) (plan : ExecutionPlan) (step : PlanStep) (answer : ToolAnswer) :
    Prop :=
  (rt.verdict plan step answer).toOption.any VerificationResult.passed = true

/-- The verification of the answer asks for another attempt. -/
def Retries (rt : AgentRuntime) (plan : ExecutionPlan) (step : PlanStep) (answer : ToolAnswer) :
    Prop :=
  (rt.verdict plan step answer).toOption.any (fun v => v.action = .retry) = true

instance (answer : ToolAnswer) : Decidable (Passes rt plan step answer) :=
  inferInstanceAs (Decidable (_ = true))

/-- The answers of the tool of the step. -/
def answersOf (stepId : Json) (es : List (Event Op Op.Res)) : List ToolAnswer :=
  es.filterMap fun
    | ⟨.callTool (.step id) _, answer⟩ => if id = stepId then some answer else none
    | _ => none

/-- The last answer of the tool of the step passes. Another attempt is made only after an answer
that does not, so that one which never gets to the tool hides nothing. -/
def VerifiedIn (rt : AgentRuntime) (plan : ExecutionPlan) (step : PlanStep)
    (es : List (Event Op Op.Res)) : Prop :=
  ∃ answer, (answersOf step.stepId es).getLast? = some answer ∧ Passes rt plan step answer

/-- Where an answer asks for another attempt, an answer that passes follows. -/
def Redeemed (rt : AgentRuntime) (plan : ExecutionPlan) (step : PlanStep)
    (es : List (Event Op Op.Res)) : Prop :=
  ∀ earlier answer later, answersOf step.stepId es = earlier ++ answer :: later →
    Retries rt plan step answer → ∃ again ∈ later, Passes rt plan step again

@[simp] theorem answersOf_append (stepId : Json) (es es' : List (Event Op Op.Res)) :
    answersOf stepId (es ++ es') = answersOf stepId es ++ answersOf stepId es' :=
  List.filterMap_append ..

/-- The answers are those of the calls. -/
theorem mem_answersOf {stepId : Json} {answer : ToolAnswer} :
    answer ∈ answersOf stepId es ↔ ∃ call, ⟨.callTool (.step stepId) call, answer⟩ ∈ es := by
  rw [answersOf, List.mem_filterMap]
  constructor
  · rintro ⟨⟨o, r⟩, he, h⟩
    cases o with
    | callTool site call =>
      cases site with
      | step id =>
        simp only [Option.ite_none_right_eq_some, Option.some.injEq] at h
        obtain ⟨rfl, rfl⟩ := h
        exact ⟨call, he⟩
      | _ => cases h
    | _ => cases h
  · rintro ⟨call, he⟩
    exact ⟨_, he, if_pos rfl⟩

/-- What is verified was answered. -/
theorem VerifiedIn.answered (h : VerifiedIn rt plan step es) :
    ∃ answer ∈ answersOf step.stepId es, Passes rt plan step answer := by
  obtain ⟨answer, hlast, hp⟩ := h
  exact ⟨answer, List.mem_of_getLast? hlast, hp⟩

section Congr

variable {es' : List (Event Op Op.Res)} (h : answersOf step.stepId es = answersOf step.stepId es')

include h

/-- Only the answers count. -/
theorem verifiedIn_congr : VerifiedIn rt plan step es ↔ VerifiedIn rt plan step es' := by
  rw [VerifiedIn, VerifiedIn, h]

theorem redeemed_congr : Redeemed rt plan step es ↔ Redeemed rt plan step es' := by
  rw [Redeemed, Redeemed, h]

end Congr

/-! ## What the verifier says -/

/-- A step as the planner makes it: it is tried once more at most. -/
def PlanStep.Fresh (step : PlanStep) : Prop := step.maxRetries = 1

/-- The result is a success where the server has carried the call out. -/
@[simp] theorem result_success (step : PlanStep) (toolName : Json) (answer : ToolAnswer) :
    (step.result toolName answer).success = succeeded answer := by
  cases answer with
  | error exc => rfl
  | ok result =>
    rw [PlanStep.result, succeeded]
    split_ifs with hs
    · exact hs.symm
    · exact (eq_false_of_ne_true hs).symm

/-- What the verification of a result comes to. -/
inductive Judgement : StepResult → VerificationResult → Prop
  /-- a failure is given up at the first attempt -/
  | given {r : StepResult} {v : VerificationResult} (failed : r.success = false)
      (passed : v.passed = false) (action : v.action = .abort ∨ v.action = .askUser) : Judgement r v
  | passed {r : StepResult} {v : VerificationResult} (done : r.success = true)
      (passed : v.passed = true) (action : v.action = .continue) : Judgement r v
  /-- a criterion is missed -/
  | missed {r : StepResult} {v : VerificationResult} (done : r.success = true)
      (passed : v.passed = false) (action : v.action = .retry) : Judgement r v

theorem verify_judgement {py : PyLib} {r : StepResult} {v : VerificationResult}
    (hfresh : step.Fresh) (h : verify py step r plan = .ok v) : Judgement r v := by
  rw [verify] at h
  cases hs : r.success with
  | false =>
    rw [hs, Bool.not_false, if_pos rfl] at h
    cases h
    refine .given hs rfl ?_
    rw [nextActionForFailure, hfresh, if_neg (lt_irrefl _)]
    split_ifs
    · exact .inr rfl
    · exact .inl rfl
  | true =>
    rw [hs, Bool.not_true, if_neg Bool.false_ne_true] at h
    split at h
    · cases h
      exact .passed hs rfl rfl
    · -- whatever the criteria are
      extract_lets check at h
      have hcheck (criteria : List Json) (h : check criteria = .ok v) : Judgement r v := by
        obtain ⟨unmet, -, h⟩ := Traversal.bind_eq_ok_iff.mp h
        cases unmet with
        | none =>
          cases h
          exact .passed hs rfl rfl
        | some criterion =>
          cases h
          exact .missed hs rfl rfl
      split at h
      · obtain ⟨criteria, -, h⟩ := Traversal.bind_eq_ok_iff.mp h
        exact hcheck criteria h
      · exact hcheck [] h

/-- The verdict on an answer is one on a result. -/
theorem verdict_eq_ok_iff {answer : ToolAnswer} {v : VerificationResult} :
    rt.verdict plan step answer = .ok v ↔ ∃ toolName, step.toolCandidates.first = .ok toolName ∧
      verify rt.py step (step.result toolName answer) plan = .ok v :=
  Traversal.bind_eq_ok_iff

theorem passes_iff {answer : ToolAnswer} : Passes rt plan step answer ↔
    ∃ v, rt.verdict plan step answer = .ok v ∧ v.passed = true := by
  rw [Passes]
  cases rt.verdict plan step answer <;> simp [Except.toOption]

theorem retries_iff {answer : ToolAnswer} : Retries rt plan step answer ↔
    ∃ v, rt.verdict plan step answer = .ok v ∧ v.action = .retry := by
  rw [Retries]
  cases rt.verdict plan step answer <;> simp [Except.toOption]

/-- What passes is not tried again. -/
theorem Passes.not_retries (hfresh : step.Fresh) {answer : ToolAnswer}
    (h : Passes rt plan step answer) : ¬ Retries rt plan step answer := by
  intro hr
  obtain ⟨v, hv, hpassed⟩ := passes_iff.mp h
  obtain ⟨v', hv', hretry⟩ := retries_iff.mp hr
  obtain rfl := Except.ok.inj (hv.symm.trans hv')
  obtain ⟨toolName, -, hverify⟩ := verdict_eq_ok_iff.mp hv
  cases verify_judgement hfresh hverify with
  | given _ hp => rw [hpassed] at hp; cases hp
  | passed _ _ ha => rw [hretry] at ha; cases ha
  | missed _ hp => rw [hpassed] at hp; cases hp

/-- Only what was carried out is tried again. -/
theorem Retries.succeeded (hfresh : step.Fresh) {answer : ToolAnswer}
    (h : Retries rt plan step answer) : succeeded answer = true := by
  obtain ⟨v, hv, hretry⟩ := retries_iff.mp h
  obtain ⟨toolName, -, hverify⟩ := verdict_eq_ok_iff.mp hv
  cases verify_judgement hfresh hverify with
  | given _ _ ha => rcases ha with ha | ha <;> rw [hretry] at ha <;> cases ha
  | passed hs => rwa [result_success] at hs
  | missed hs => rwa [result_success] at hs

/-! ## The turn of a step -/

/-- One attempt: what happens in it, and the answer of the tool if it is called. -/
inductive Attempt (step : PlanStep) : List (Event Op Op.Res) → Option ToolAnswer → Prop
  /-- the step has no tool, or is not pending -/
  | idle : Attempt step [] none
  | denied (operation : Operation) (d : AuthorizationDecision) :
      Attempt step [⟨.authorize operation, d⟩] none
  | called (operation : Operation) (d : AuthorizationDecision) (call : ToolCall)
      (answer : ToolAnswer) :
      Attempt step [⟨.authorize operation, d⟩, ⟨.callTool (.step step.stepId) call, answer⟩]
        (some answer)

/-- An attempt under way, or one that has raised before it got to the gateway. -/
inductive Attempting : List (Event Op Op.Res) → Prop
  | asking : Attempting []
  | asked (operation : Operation) (d : AuthorizationDecision) :
      Attempting [⟨.authorize operation, d⟩]

/-- The result of an attempt. -/
def PlanStep.Yields (step : PlanStep) (r : StepResult) : Option ToolAnswer → Prop
  | none => r.success = false
  | some answer =>
    ∃ toolName, step.toolCandidates.first = .ok toolName ∧ r = step.result toolName answer

/-- What executing a step may have done. -/
theorem executeStep_trace {c : Co StepResult} (h : Trace (rt.executeStep plan step) es c) :
    (Attempting es ∧ ∀ r, c ≠ .ret r) ∨
      ∃ r answer, c = .ret r ∧ Attempt step es answer ∧ step.Yields r answer := by
  rcases rt.executeStep_cases plan step with
    ⟨error, heq⟩ | ⟨exc, heq⟩ | ⟨toolName, kind, hfirst, -, heq⟩
  · rw [heq] at h
    obtain ⟨rfl, rfl⟩ := h.of_ret
    exact .inr ⟨_, none, rfl, .idle, rfl⟩
  · rw [heq] at h
    cases h
    exact .inl ⟨.asking, by rintro r ⟨⟩⟩
  · rw [heq] at h
    rcases h.of_op with ⟨rfl, rfl⟩ | ⟨d, es', rfl, h'⟩
    · exact .inl ⟨.asking, by rintro r ⟨⟩⟩
    · simp only [Prog.ret_bind] at h'
      split at h'
      · obtain ⟨rfl, rfl⟩ := h'.of_ret
        exact .inr ⟨_, none, rfl, .denied _ d, rfl⟩
      · rcases h'.of_op with ⟨rfl, rfl⟩ | ⟨answer, es'', rfl, h''⟩
        · exact .inl ⟨.asked _ d, by rintro r ⟨⟩⟩
        · have hret : Trace (.ret (step.result toolName answer) : Co StepResult) es'' c := by
            cases answer <;> exact h''
          obtain ⟨rfl, rfl⟩ := hret.of_ret
          exact .inr ⟨_, some answer, rfl, .called _ d _ answer, toolName, hfirst, rfl⟩

/-- A step and what comes after it. -/
theorem executeStep_bind_trace {α : Type} {f : StepResult → Co α} {c : Co α}
    (h : Trace ((rt.executeStep plan step).bind f) es c) :
    (Attempting es ∧ ∀ a, c ≠ .ret a) ∨
      ∃ r answer es₁ es₂, es = es₁ ++ es₂ ∧ Attempt step es₁ answer ∧ step.Yields r answer ∧
        Trace (f r) es₂ c := by
  rcases Trace.of_bind h with ⟨c', h₁, hret, rfl⟩ | ⟨r, es₁, es₂, h₁, rfl, h₂⟩
  · rcases executeStep_trace h₁ with ⟨hun, -⟩ | ⟨r, answer, rfl, -, -⟩
    · refine .inl ⟨hun, fun a ha => ?_⟩
      obtain ⟨r, hr, -⟩ := Prog.bind_eq_ret ha
      exact hret r hr
    · exact absurd rfl (hret r)
  · rcases executeStep_trace h₁ with ⟨-, hne⟩ | ⟨r', answer, hr, hattempt, hyields⟩
    · exact absurd rfl (hne r)
    · cases hr
      exact .inr ⟨r, answer, es₁, es₂, rfl, hattempt, hyields, h₂⟩

/-- What is raised again ends the coroutine. -/
theorem raised_bind_trace {α β : Type} {x : Except Exn β} {f : β → Co α} {c : Co α}
    (h : Trace ((raised x).bind f) es c) :
    (es = [] ∧ ∀ a, c ≠ .ret a) ∨ ∃ b, x = .ok b ∧ Trace (f b) es c := by
  cases x with
  | ok b => exact .inr ⟨b, rfl, h⟩
  | error exc =>
    cases h
    exact .inl ⟨rfl, by rintro a ⟨⟩⟩

/-- The turn of a step that lets the loop go on. -/
inductive Turn (rt : AgentRuntime) (plan : ExecutionPlan) (step : PlanStep) :
    List (Event Op Op.Res) → Prop
  | once {es : List (Event Op Op.Res)} {answer : ToolAnswer}
      (attempt : Attempt step es (some answer)) (passes : Passes rt plan step answer) :
      Turn rt plan step es
  /-- whatever the verification of the second attempt says -/
  | twice {es₁ es₂ : List (Event Op Op.Res)} {answer : ToolAnswer} {again : Option ToolAnswer}
      (first : Attempt step es₁ (some answer)) (retries : Retries rt plan step answer)
      (second : Attempt step es₂ again) : Turn rt plan step (es₁ ++ es₂)

/-- A turn under way, or the last one: the step is given up, or its verification raises. -/
inductive Unfinished (rt : AgentRuntime) (plan : ExecutionPlan) (step : PlanStep) :
    List (Event Op Op.Res) → Prop
  | first {es : List (Event Op Op.Res)} (attempt : Attempting es) : Unfinished rt plan step es
  | given {es : List (Event Op Op.Res)} {answer : Option ToolAnswer}
      (attempt : Attempt step es answer) : Unfinished rt plan step es
  | second {es₁ es₂ : List (Event Op Op.Res)} {answer : ToolAnswer}
      (first : Attempt step es₁ (some answer)) (retries : Retries rt plan step answer)
      (second : Attempting es₂) : Unfinished rt plan step (es₁ ++ es₂)
  | lost {es₁ es₂ : List (Event Op Op.Res)} {answer : ToolAnswer} {again : Option ToolAnswer}
      (first : Attempt step es₁ (some answer)) (retries : Retries rt plan step answer)
      (second : Attempt step es₂ again) : Unfinished rt plan step (es₁ ++ es₂)

/-- The turns of the steps, one after the other. -/
inductive Turns (rt : AgentRuntime) (plan : ExecutionPlan) :
    List PlanStep → List (Event Op Op.Res) → Prop
  | nil : Turns rt plan [] []
  | cons {step : PlanStep} {rest : List PlanStep} {es es' : List (Event Op Op.Res)}
      (turn : Turn rt plan step es) (turns : Turns rt plan rest es') :
      Turns rt plan (step :: rest) (es ++ es')

/-- The loop over the steps, as far as it has come. -/
inductive Loop (rt : AgentRuntime) (plan : ExecutionPlan) :
    List PlanStep → List (Event Op Op.Res) → Prop
  | nil : Loop rt plan [] []
  | unfinished {step : PlanStep} {rest : List PlanStep} {es : List (Event Op Op.Res)}
      (turn : Unfinished rt plan step es) : Loop rt plan (step :: rest) es
  | cons {step : PlanStep} {rest : List PlanStep} {es es' : List (Event Op Op.Res)}
      (turn : Turn rt plan step es) (loop : Loop rt plan rest es') :
      Loop rt plan (step :: rest) (es ++ es')

/-- What the loop has done when it is through, if it is. -/
def Through (rt : AgentRuntime) (plan : ExecutionPlan) (steps : List PlanStep) (before : ℕ)
    (es : List (Event Op Op.Res)) (c : Co PlanOutcome) : Prop :=
  ∀ all, c = .ret (.completed all) →
    Turns rt plan steps es ∧ all.length = before + steps.length

/-- **One turn**, and either the loop goes on or it is over. -/
theorem executeSteps_cons_trace {rest : List PlanStep} {results : List StepResult}
    {c : Co PlanOutcome} (hfresh : step.Fresh)
    (h : Trace (rt.executeSteps plan (step :: rest) results) es c) :
    (Unfinished rt plan step es ∧ ∀ all, c ≠ .ret (.completed all)) ∨
      ∃ r es₁ es₂, es = es₁ ++ es₂ ∧ Turn rt plan step es₁ ∧
        Trace (rt.executeSteps plan rest (results ++ [r])) es₂ c := by
  rcases executeStep_bind_trace h with
    ⟨hun, hc⟩ | ⟨r, answer, es₁, es₂, rfl, hattempt, hyields, h₂⟩
  · exact .inl ⟨.first hun, fun all => hc _⟩
  rcases raised_bind_trace h₂ with ⟨rfl, hc⟩ | ⟨v, hv, h₂⟩
  · rw [List.append_nil]
    exact .inl ⟨.given hattempt, fun all => hc _⟩
  have hjudged := verify_judgement hfresh hv
  -- an answer was given unless the result is a failure
  have hanswer (hs : r.success = true) : ∃ a, answer = some a ∧
      rt.verdict plan step a = .ok v := by
    cases answer with
    | none => exact absurd (hyields.symm.trans hs) Bool.false_ne_true
    | some a =>
      obtain ⟨toolName, hfirst, rfl⟩ := hyields
      exact ⟨a, rfl, verdict_eq_ok_iff.mpr ⟨toolName, hfirst, hv⟩⟩
  cases hjudged with
  | given hfailed hpassed haction =>
    have hretry : ¬ (v.action = .retry ∧ 0 < step.maxRetries) := by
      rintro ⟨hr, -⟩
      rcases haction with ha | ha <;> rw [ha] at hr <;> cases hr
    rw [if_neg (by rw [hpassed]; exact Bool.false_ne_true), if_neg hretry, if_pos haction] at h₂
    obtain ⟨rfl, rfl⟩ := h₂.of_ret
    rw [List.append_nil]
    exact .inl ⟨.given hattempt, by rintro all ⟨⟩⟩
  | passed hdone hpassed haction =>
    obtain ⟨a, rfl, hv'⟩ := hanswer hdone
    rw [if_pos hpassed] at h₂
    exact .inr ⟨r, es₁, es₂, rfl, .once hattempt (passes_iff.mpr ⟨v, hv', hpassed⟩), h₂⟩
  | missed hdone hpassed haction =>
    obtain ⟨a, rfl, hv'⟩ := hanswer hdone
    have hretries : Retries rt plan step a := retries_iff.mpr ⟨v, hv', haction⟩
    have hretry : v.action = .retry ∧ 0 < step.maxRetries := ⟨haction, by rw [hfresh]; decide⟩
    rw [if_neg (by rw [hpassed]; exact Bool.false_ne_true), if_pos hretry] at h₂
    rcases executeStep_bind_trace h₂ with
      ⟨hun, hc⟩ | ⟨r', again, es₃, es₄, rfl, hagain, -, h₄⟩
    · exact .inl ⟨.second hattempt hretries hun, fun all => hc _⟩
    -- of the second verification only an exception counts
    rcases raised_bind_trace h₄ with ⟨rfl, hc⟩ | ⟨-, -, h₄⟩
    · rw [List.append_nil]
      exact .inl ⟨.lost hattempt hretries hagain, fun all => hc _⟩
    · rw [← List.append_assoc]
      exact .inr ⟨r', _, es₄, rfl, .twice hattempt hretries hagain, h₄⟩

/-- **What the loop may have done**, and what it has done when it is through. -/
theorem executeSteps_trace {steps : List PlanStep} (hfresh : ∀ step ∈ steps, step.Fresh)
    {results : List StepResult} {c : Co PlanOutcome}
    (h : Trace (rt.executeSteps plan steps results) es c) :
    Loop rt plan steps es ∧ Through rt plan steps results.length es c := by
  induction steps generalizing results es with
  | nil =>
    obtain ⟨rfl, rfl⟩ := Trace.of_ret h
    refine ⟨.nil, fun all hall => ?_⟩
    cases hall
    exact ⟨.nil, rfl⟩
  | cons step rest ih =>
    rcases executeSteps_cons_trace (hfresh step List.mem_cons_self) h with
      ⟨hturn, hc⟩ | ⟨r, es₁, es₂, rfl, hturn, h₂⟩
    · exact ⟨.unfinished hturn, fun all hall => absurd hall (hc all)⟩
    · obtain ⟨hloop, hall⟩ := ih (fun s hs => hfresh s (List.mem_cons_of_mem _ hs)) h₂
      refine ⟨.cons hturn hloop, fun all hc => ?_⟩
      obtain ⟨hturns, hlen⟩ := hall all hc
      refine ⟨.cons hturn hturns, ?_⟩
      simp only [List.length_append, List.length_cons, List.length_nil] at hlen ⊢
      omega

/-! ## The answers of one step -/

/-- Of the steps it is only this one whose tool is called. -/
def Within (stepId : Json) (es : List (Event Op Op.Res)) : Prop :=
  ∀ other, other ≠ stepId → answersOf other es = []

theorem Within.append {stepId : Json} {es es' : List (Event Op Op.Res)} (h : Within stepId es)
    (h' : Within stepId es') : Within stepId (es ++ es') := by
  intro other hne
  rw [answersOf_append, h other hne, h' other hne, List.append_nil]

/-- A part of it. -/
theorem Within.left {stepId : Json} {es es' : List (Event Op Op.Res)}
    (h : Within stepId (es ++ es')) : Within stepId es := by
  intro other hne
  have hall := h other hne
  rw [answersOf_append] at hall
  exact (List.append_eq_nil_iff.mp hall).1

/-- The call of a step is within no other. -/
theorem Within.eq_of_mem {stepId id : Json} {call : ToolCall} {answer : ToolAnswer}
    (h : Within stepId es) (hmem : ⟨.callTool (.step id) call, answer⟩ ∈ es) : id = stepId := by
  by_contra hne
  have hanswer := mem_answersOf.mpr ⟨call, hmem⟩
  rw [h id hne] at hanswer
  cases hanswer

theorem Attempt.within {answer : Option ToolAnswer} (h : Attempt step es answer) :
    Within step.stepId es := by
  intro other hne
  cases h with
  | idle => rfl
  | denied => rfl
  | called => simp [answersOf, Ne.symm hne]

@[simp] theorem Attempt.answers {answer : Option ToolAnswer} (h : Attempt step es answer) :
    answersOf step.stepId es = answer.toList := by
  cases h <;> simp [answersOf]

@[simp] theorem Attempting.answers (h : Attempting es) (stepId : Json) :
    answersOf stepId es = [] := by
  cases h <;> rfl

theorem Turn.within (h : Turn rt plan step es) : Within step.stepId es := by
  cases h with
  | once attempt => exact attempt.within
  | twice first _ second => exact first.within.append second.within

theorem Unfinished.within (h : Unfinished rt plan step es) : Within step.stepId es := by
  cases h with
  | first attempt => exact fun _ _ => attempt.answers _
  | given attempt => exact attempt.within
  | second first _ second => exact first.within.append fun _ _ => second.answers _
  | lost first _ second => exact first.within.append second.within

/-- The answers of a turn: one, or two of which the first asks for the second. -/
theorem Turn.answers_cases (h : Turn rt plan step es) :
    (∃ a, answersOf step.stepId es = [a]) ∨
      ∃ a b, answersOf step.stepId es = [a, b] ∧ Retries rt plan step a := by
  cases h with
  | once attempt => exact .inl ⟨_, attempt.answers⟩
  | @twice _ _ answer again first retries second =>
    rw [answersOf_append, first.answers, second.answers]
    cases again with
    | none => exact .inl ⟨_, rfl⟩
    | some b => exact .inr ⟨answer, b, rfl, retries⟩

/-- The answers of a turn that is not over, or is the last one. -/
theorem Unfinished.answers_cases (h : Unfinished rt plan step es) :
    answersOf step.stepId es = [] ∨ (∃ a, answersOf step.stepId es = [a]) ∨
      ∃ a b, answersOf step.stepId es = [a, b] ∧ Retries rt plan step a := by
  cases h with
  | first attempt => exact .inl (attempt.answers _)
  | @given _ answer attempt =>
    rw [attempt.answers]
    cases answer with
    | none => exact .inl rfl
    | some a => exact .inr (.inl ⟨a, rfl⟩)
  | second first _ second =>
    exact .inr (.inl ⟨_, by rw [answersOf_append, first.answers, second.answers]; rfl⟩)
  | lost first retries second => exact .inr (Turn.answers_cases (.twice first retries second))

/-- **After its turn** a step is verified unless its second attempt has failed. -/
theorem Turn.verifiedIn_iff (hfresh : step.Fresh) (h : Turn rt plan step es) :
    VerifiedIn rt plan step es ↔ Redeemed rt plan step es := by
  cases h with
  | @once _ answer attempt passes =>
    rw [VerifiedIn, Redeemed, attempt.answers, Option.toList_some]
    refine iff_of_true ⟨answer, rfl, passes⟩ fun earlier a later hlist hr => ?_
    obtain rfl : a = answer := by
      have hmem : a ∈ [answer] := hlist ▸ List.mem_append_right _ List.mem_cons_self
      exact List.mem_singleton.mp hmem
    exact absurd hr (passes.not_retries hfresh)
  | @twice es₁ es₂ answer again first retries second =>
    rw [VerifiedIn, Redeemed, answersOf_append, first.answers, second.answers]
    have hfails : ¬ Passes rt plan step answer := fun hp => hp.not_retries hfresh retries
    constructor
    · rintro ⟨last, hlast, hp⟩ earlier a later heq hr
      cases again with
      | none =>
        cases hlast
        exact absurd hp hfails
      | some b =>
        cases hlast
        rcases earlier with - | ⟨x, earlier⟩
        · cases heq
          exact ⟨_, List.mem_singleton_self _, hp⟩
        · have hmem : a ∈ [b] := by
            rw [show [b] = earlier ++ a :: later from (List.cons.inj heq).2]
            exact List.mem_append_right _ List.mem_cons_self
          rw [List.mem_singleton.mp hmem] at hr
          exact absurd hr (hp.not_retries hfresh)
    · intro h
      obtain ⟨b, hb, hp⟩ := h [] answer again.toList rfl retries
      obtain rfl := Option.mem_toList.mp hb
      exact ⟨b, rfl, hp⟩

/-! ## Turns of different steps -/

/-- The identifiers of the steps. -/
def idsOf (steps : List PlanStep) : List Json := steps.map PlanStep.stepId

theorem mem_idsOf {steps : List PlanStep} (h : step ∈ steps) : step.stepId ∈ idsOf steps :=
  List.mem_map_of_mem h

variable {steps : List PlanStep}

theorem Turns.loop (h : Turns rt plan steps es) : Loop rt plan steps es := by
  induction h with
  | nil => exact .nil
  | cons turn _ ih => exact .cons turn ih

/-- The tool of a step that is not there is not called. -/
theorem Loop.other (h : Loop rt plan steps es) {stepId : Json} (hid : stepId ∉ idsOf steps) :
    answersOf stepId es = [] := by
  induction h with
  | nil => rfl
  | unfinished turn => exact turn.within _ (List.ne_of_not_mem_cons hid)
  | cons turn _ ih =>
    rw [answersOf_append, turn.within _ (List.ne_of_not_mem_cons hid),
      ih (List.not_mem_of_not_mem_cons hid), List.append_nil]

/-- Each step has had its turn, and its tool was called in no other. -/
theorem Turns.turn (h : Turns rt plan steps es) (hnodup : (idsOf steps).Nodup)
    (hstep : step ∈ steps) :
    ∃ es', Turn rt plan step es' ∧ answersOf step.stepId es = answersOf step.stepId es' := by
  induction h with
  | nil => exact absurd hstep List.not_mem_nil
  | @cons head rest es₁ es₂ turn turns ih =>
    obtain ⟨hhead, hrest⟩ := List.nodup_cons.mp hnodup
    rcases List.mem_cons.mp hstep with rfl | hmem
    · exact ⟨es₁, turn, by rw [answersOf_append, turns.loop.other hhead, List.append_nil]⟩
    · have hne : step.stepId ≠ head.stepId := fun h => hhead (h ▸ mem_idsOf hmem)
      obtain ⟨es', hturn, hes'⟩ := ih hrest hmem
      exact ⟨es', hturn, by rw [answersOf_append, turn.within _ hne, List.nil_append, hes']⟩

/-- **After the loop** the steps that are not verified are those whose second attempt has
failed. -/
theorem Turns.verifiedIn_iff (h : Turns rt plan steps es) (hnodup : (idsOf steps).Nodup)
    (hfresh : step.Fresh) (hstep : step ∈ steps) :
    VerifiedIn rt plan step es ↔ Redeemed rt plan step es := by
  obtain ⟨es', hturn, hes'⟩ := h.turn hnodup hstep
  rw [verifiedIn_congr hes', redeemed_congr hes', hturn.verifiedIn_iff hfresh]

/-- After `before`, a turn of the step is under way, and the steps before it have had theirs. -/
def TurnOf (rt : AgentRuntime) (plan : ExecutionPlan) (steps : List PlanStep) (id : Json)
    (before es : List (Event Op Op.Res)) : Prop :=
  ∃ done step rest turns es' own, steps = done ++ step :: rest ∧ step.stepId = id ∧
    es = turns ++ es' ∧ Turns rt plan done turns ∧ Loop rt plan (step :: rest) es' ∧
    before = turns ++ own ∧ Within id own

/-- A call of a tool is in a turn of its step. -/
theorem Loop.located (h : Loop rt plan steps es) {before after : List (Event Op Op.Res)}
    {id : Json} {call : ToolCall} {answer : ToolAnswer}
    (hes : es = before ++ ⟨.callTool (.step id) call, answer⟩ :: after) :
    TurnOf rt plan steps id before es := by
  induction h generalizing before with
  | nil => simp at hes
  | @unfinished step rest es turn =>
    have hwithin := turn.within
    subst hes
    obtain rfl := hwithin.eq_of_mem (List.mem_append_right _ List.mem_cons_self)
    exact ⟨[], step, rest, [], _, before, rfl, rfl, rfl, .nil, .unfinished turn, rfl, hwithin.left⟩
  | @cons head rest es₁ es₂ turn loop ih =>
    -- the call is in a later turn
    have later (before' : List (Event Op Op.Res))
        (hes₂ : es₂ = before' ++ ⟨.callTool (.step id) call, answer⟩ :: after)
        (hbefore : before = es₁ ++ before') :
        TurnOf rt plan (head :: rest) id before (es₁ ++ es₂) := by
      obtain ⟨done, step, rest', turns, es', own, rfl, hid, rfl, hturns, hloop, rfl, hown⟩ :=
        ih hes₂
      exact ⟨head :: done, step, rest', es₁ ++ turns, es', own, rfl, hid,
        by rw [List.append_assoc], .cons turn hturns, hloop, by rw [hbefore, List.append_assoc],
        hown⟩
    rcases List.append_eq_append_iff.mp hes with ⟨before', hbefore, hes₂⟩ | ⟨own, rfl, hes₂⟩
    · exact later before' hes₂ hbefore
    · rcases own with - | ⟨e, own⟩
      · exact later [] hes₂.symm (by simp)
      · obtain ⟨rfl, -⟩ := List.cons.inj hes₂
        have hwithin := turn.within
        obtain rfl := hwithin.eq_of_mem (List.mem_append_right _ List.mem_cons_self)
        exact ⟨[], head, rest, [], _, before, rfl, rfl, rfl, .nil, .cons turn loop, rfl,
          hwithin.left⟩

/-- A step has at most two answers, and two only where the first asks for another attempt. -/
theorem Loop.answers (h : Loop rt plan steps es) (hnodup : (idsOf steps).Nodup)
    (hstep : step ∈ steps) :
    answersOf step.stepId es = [] ∨ (∃ a, answersOf step.stepId es = [a]) ∨
      ∃ a b, answersOf step.stepId es = [a, b] ∧ Retries rt plan step a := by
  induction h with
  | nil => exact absurd hstep List.not_mem_nil
  | @unfinished head rest es₁ turn =>
    rcases List.mem_cons.mp hstep with rfl | hmem
    · exact turn.answers_cases
    · have hne : step.stepId ≠ head.stepId :=
        fun h => (List.nodup_cons.mp hnodup).1 (h ▸ mem_idsOf hmem)
      exact .inl (turn.within _ hne)
  | @cons head rest es₁ es₂ turn loop ih =>
    obtain ⟨hhead, hrest⟩ := List.nodup_cons.mp hnodup
    rcases List.mem_cons.mp hstep with rfl | hmem
    · rw [answersOf_append, loop.other hhead, List.append_nil]
      exact .inr turn.answers_cases
    · have hne : step.stepId ≠ head.stepId := fun h => hhead (h ▸ mem_idsOf hmem)
      rw [answersOf_append, turn.within _ hne]
      exact ih hrest hmem

/-- **At a call of a step**: what has been verified is a step before it, and of these it is what
no second attempt has failed of. -/
theorem Loop.dispatch {done rest : List PlanStep} (h : Loop rt plan (done ++ step :: rest) es)
    (hnodup : (idsOf (done ++ step :: rest)).Nodup)
    (hfresh : ∀ dep ∈ done, dep.Fresh) {before after : List (Event Op Op.Res)} {call : ToolCall}
    {answer : ToolAnswer}
    (hes : es = before ++ ⟨.callTool (.step step.stepId) call, answer⟩ :: after) {dep : PlanStep}
    (hdep : dep ∈ done ++ step :: rest) (hne : dep.stepId ≠ step.stepId) :
    VerifiedIn rt plan dep before ↔ dep ∈ done ∧ Redeemed rt plan dep es := by
  obtain ⟨done', step', rest', turns, es', own, hsteps, hid, rfl, hturns, hloop, rfl, hown⟩ :=
    h.located hes
  -- the step that calls is the one of the plan
  have hin : step' ∈ done ++ step :: rest := hsteps ▸ by simp
  obtain rfl := List.inj_on_of_nodup_map hnodup hin (by simp) hid
  have hids := hnodup
  rw [idsOf, List.map_append, List.nodup_append] at hids
  obtain ⟨hdone, hlast, hapart⟩ := hids
  have hnot : step' ∉ done := fun hmem => hapart _ (mem_idsOf hmem) _ List.mem_cons_self rfl
  have hnot' : step' ∉ rest := fun hmem => (List.nodup_cons.mp hlast).1 (mem_idsOf hmem)
  obtain ⟨rfl, -, rfl⟩ := (List.append_cons_inj_of_notMem hnot hnot').mp hsteps
  have hbefore : answersOf dep.stepId (turns ++ own) = answersOf dep.stepId turns := by
    rw [answersOf_append, hown _ hne, List.append_nil]
  rw [verifiedIn_congr hbefore]
  rcases List.mem_append.mp hdep with hmem | hmem
  · have hother : dep.stepId ∉ idsOf (step' :: rest) := fun hin =>
      hapart _ (mem_idsOf hmem) _ hin rfl
    have hall : answersOf dep.stepId (turns ++ es') = answersOf dep.stepId turns := by
      rw [answersOf_append, hloop.other hother, List.append_nil]
    rw [redeemed_congr hall, hturns.verifiedIn_iff hdone (hfresh dep hmem) hmem]
    exact ⟨fun h => ⟨hmem, h⟩, fun h => h.2⟩
  · have hother : dep.stepId ∉ idsOf done := fun hin => hapart _ hin _ (mem_idsOf hmem) rfl
    refine iff_of_false ?_ fun h => hother (mem_idsOf h.1)
    rintro ⟨answer', hlast, -⟩
    rw [hturns.loop.other hother] at hlast
    cases hlast

end BankingAgent
