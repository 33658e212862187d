import BankingAgent.Tools

/-!
# `routing/`: which way a message takes

A message is classified by keywords, then by patterns, and only then, if one is
configured, by a model. The intent alone determines the rest: the route, and the
tools that are suggested for it.
-/

namespace BankingAgent

/-- `Intent`. -/
inductive Intent : Type where
  | accountQuery
  | transactionQuery
  | beneficiaryQuery
  | transferCreate
  | transferSubmit
  | transferCancel
  | transferStatus
  | policyQuestion
  | formAssistance
  | productQuestion
  | suspiciousActivityReport
  | complexTask
  | multiAccountTask
  | generalUnsupported
  deriving DecidableEq, Repr

/-- `Intent.value`. -/
def Intent.value : Intent → String
  | accountQuery => "account_query"
  | transactionQuery => "transaction_query"
  | beneficiaryQuery => "beneficiary_query"
  | transferCreate => "transfer_create"
  | transferSubmit => "transfer_submit"
  | transferCancel => "transfer_cancel"
  | transferStatus => "transfer_status"
  | policyQuestion => "policy_question"
  | formAssistance => "form_assistance"
  | productQuestion => "product_question"
  | suspiciousActivityReport => "suspicious_activity_report"
  | complexTask => "complex_task"
  | multiAccountTask => "multi_account_task"
  | generalUnsupported => "general_unsupported"

/-- `_suggest_tools`. -/
def suggestTools : Intent → List String
  | .accountQuery => ["get_balance", "get_account_summary"]
  | .transactionQuery => ["list_transactions"]
  | .beneficiaryQuery => ["find_beneficiary"]
  | .transferCreate => ["create_transfer_draft"]
  | .transferSubmit => ["submit_transfer"]
  | .transferCancel => ["cancel_transfer"]
  | .transferStatus => ["get_transfer_status"]
  | .suspiciousActivityReport => ["report_suspicious_transaction"]
  | _ => []

/-! ## The classifier -/

/-- `_KEYWORD_RULES`, in order. -/
def keywordRules : List (List String × Intent) :=
  [(["submit draft", "execute transfer", "finalize transfer", "confirm transfer"],
      .transferSubmit),
    (["cancel", "void", "stop transfer"], .transferCancel),
    (["transfer status", "where is my transfer", "track transfer", "status of transfer"],
      .transferStatus),
    (["send money", "send $", "transfer $", "pay ", "make a transfer", "create transfer",
      "draft transfer", "send a transfer", "new transfer"], .transferCreate),
    (["fraud", "suspicious", "scam", "unauthorized", "phishing", "report suspicious"],
      .suspiciousActivityReport),
    (["balance", "how much", "account summary", "my account", "show account"], .accountQuery),
    (["transactions", "transaction", "recent", "history", "last payment", "what did I spend",
      "statement"], .transactionQuery),
    (["beneficiary", "payee", "recipient", "who can I send"], .beneficiaryQuery),
    (["fee", "charge", "rate", "policy", "rule", "limit", "how long", "how much does it cost",
      "what is the", "how do I", "form", "account type", "offer", "product"], .policyQuestion),
    (["and then", "also", "additionally", "after that", "schedule recurring"], .complexTask)]

variable (py : PyLib)

/-- The maximal runs of `\w` characters: what `\b…\b` can match if `…` is such a run. -/
def words (text : String) : List (List Char) := text.toList.splitOnP fun c => !py.wordChar c

/-- `_is_word_match`: phrases match anywhere, single words as words. -/
def isWordMatch (keyword text : String) : Bool :=
  if contains " " keyword then contains keyword text
  else (words py text).contains keyword.toList

/-- The first rule with a keyword that matches. -/
def matchKeywords (messageLower : String) : Option Intent :=
  (keywordRules.find? fun rule => rule.1.any fun kw =>
    contains kw messageLower && isWordMatch py kw messageLower).map Prod.snd

/-- The pattern heuristics. -/
def matchPatterns (messageLower : String) : Option Intent :=
  let verbs := ["send", "pay", "transfer", "check", "find", "show", "get", "cancel", "report"]
  let actionVerbs := (words py messageLower).filter fun w => verbs.any fun v => v.toList = w
  if 2 ≤ actionVerbs.length then some .complexTask
  else if ["what", "how", "why", "when", "where", "can i", "do i"].any
      (contains · messageLower) then
    if ["$", "dollar", "amount", "balance", "money"].any (contains · messageLower) then
      some .accountQuery
    else some .policyQuestion
  else none

/-- The keys of `intent_map`, in order, each the value of its intent. -/
def llmIntents : List Intent :=
  [.accountQuery, .transactionQuery, .beneficiaryQuery, .transferCreate, .transferSubmit,
    .transferCancel, .transferStatus, .policyQuestion, .suspiciousActivityReport, .complexTask,
    .generalUnsupported]

/-- `_llm_classify`, given the content of the model's answer; `none` if it raised. -/
def llmClassify (answer : Option String) : Intent :=
  match answer with
  | none => .generalUnsupported
  | some content =>
    let raw := py.lower (py.strip content)
    (llmIntents.find? fun intent => contains intent.value raw).getD .generalUnsupported

/-- `Router`: the optional model the classifier falls back on. The call happens inside
the classifier, so here it is a function of the message. -/
structure Router : Type where
  llm : Option (String → Option String)

/-- `classify`: the intent. Every result suggests the tools of its intent. -/
def classify (router : Router) (message : String) : Intent :=
  let messageLower := py.strip (py.lower message)
  ((matchKeywords py messageLower).orElse fun _ => matchPatterns py messageLower).getD
    (match router.llm with
    | some llm => llmClassify py (llm message)
    | none => .generalUnsupported)

/-! ## The policy -/

/-- `RouteKind`. -/
inductive RouteKind : Type where
  | direct
  | rag
  | planner
  | transferStateMachine
  | reject
  deriving DecidableEq, Repr

/-- `RouteKind.value`. -/
def RouteKind.value : RouteKind → String
  | direct => "direct"
  | rag => "rag"
  | planner => "planner"
  | transferStateMachine => "transfer_state_machine"
  | reject => "reject"

/-- `Route`, as far as the runtime reads it. -/
structure Route : Type where
  kind : RouteKind
  intent : Intent
  maxSteps : Option ℕ
  suggestedTools : List String

/-- `RoutingPolicy._ROUTES`. -/
def routeKind : Intent → RouteKind
  | .accountQuery | .transactionQuery | .beneficiaryQuery | .transferStatus => .direct
  | .transferCreate | .transferSubmit | .transferCancel => .transferStateMachine
  | .policyQuestion | .formAssistance | .productQuestion => .rag
  | .complexTask | .multiAccountTask | .suspiciousActivityReport => .planner
  | .generalUnsupported => .reject

/-- `RoutingPolicy.route`: planner routes get a cap on the number of steps. -/
def routeFromIntent (intent : Intent) : Route :=
  { kind := routeKind intent
    intent
    maxSteps := if routeKind intent = .planner then some 20 else none
    suggestedTools := suggestTools intent }

/-- `Router.route`. -/
def Router.route (router : Router) (message : String) : Route :=
  routeFromIntent (classify py router message)

end BankingAgent
