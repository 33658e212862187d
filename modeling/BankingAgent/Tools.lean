import BankingAgent.Auth

/-!
# `tools/`: definitions, registry, validation

A tool definition says what a tool may do; the registry holds one definition per
name. `validate_tool_call` checks a call a model asks for against it, before
anything else looks at the call. It never changes the arguments that are passed on.
-/

namespace BankingAgent

/-- `ToolDefinition.risk_level`. -/
inductive RiskLevel : Type where
  | low
  | medium
  | high
  | critical
  deriving DecidableEq, Repr

/-- `ToolDefinition`, as far as the modelled functions read it. -/
structure ToolDefinition : Type where
  name : String
  inputSchema : Json
  sideEffect : Bool
  riskLevel : RiskLevel

/-- `ToolRegistry`: names are registered once. -/
structure ToolRegistry : Type where
  tools : List ToolDefinition
  nodup : (tools.map ToolDefinition.name).Nodup

/-- `ToolRegistry.get`. -/
def ToolRegistry.get (r : ToolRegistry) (name : String) : Option ToolDefinition :=
  r.tools.find? fun t => t.name = name

/-- `ToolRegistry.has`. -/
def ToolRegistry.has (r : ToolRegistry) (name : String) : Bool := (r.get name).isSome

/-- `ToolRegistry.get`, of any value: the names are strings. -/
def ToolRegistry.get? (r : ToolRegistry) : Json → Option ToolDefinition
  | .str name => r.get name
  | _ => none

/-- `_check_type`. -/
def checkType (value : Json) (expected : String) : Bool :=
  match expected, value with
  | "string", .str _ => true
  | "string", _ => false
  | "number", .int _ => true
  | "number", .float _ => true
  | "number", _ => false
  | "integer", .int _ => true
  | "integer", _ => false
  | "boolean", .bool _ => true
  | "boolean", _ => false
  | "object", .obj _ => true
  | "object", _ => false
  | "array", .arr _ => true
  | "array", _ => false
  | _, _ => true

/-- The fields of a dictionary, none for anything else. -/
def Json.fields : Json → List (String × Json)
  | .obj fields => fields
  | _ => []

/-- The strings of a list, none for anything else. -/
def Json.strings : Json → List String
  | .arr items => items.filterMap Json.str?
  | _ => []

variable (py : PyLib)

/-- The first missing required field, if there is one. -/
def missingField (args schema : Json) : Option String :=
  ((schema.get? "required").getD (.arr [])).strings.find? fun name =>
    match args.get? name with
    | none | some .null => true
    | some _ => false

/-- The type a property declares, if the value has not that type. A property without a type is a
string; a type that is no name is none `_check_type` knows. -/
def mistype (prop value : Json) : Option String :=
  match (prop.get? "type").getD (.str "string") with
  | .str expected => if checkType value expected then none else some expected
  | _ => none

/-- The first field whose value has not the declared type, with that type. -/
def mistypedField (args schema : Json) : Option (String × String × Json) :=
  let properties := (schema.get? "properties").getD (.obj [])
  args.fields.findSome? fun (name, value) =>
    match properties.get? name with
    | none | some .null => none
    | some prop => (mistype prop value).map fun expected => (name, expected, value)

/-- `_validate_against_schema`: the error, or `none` if the arguments conform. -/
def validateAgainstSchema (toolName : String) (args schema : Json) : Option String :=
  match missingField args schema with
  | some field => some s!"Missing required parameter: {py.repr field} for tool {py.repr toolName}"
  | none =>
    match mistypedField args schema with
    | some (name, expected, value) =>
      some (s!"Type mismatch for {py.repr name} in {py.repr toolName}: " ++
        s!"expected {expected}, got {value.typeName}")
    | none => none

/-- `validate_tool_call`: the error, or `none` if the call is valid. -/
def validateToolCall (toolName : String) (arguments : Json) (registry : ToolRegistry) :
    Option String :=
  match registry.get toolName with
  | none => some s!"Unknown tool: {py.repr toolName}"
  | some definition =>
    let conform args :=
      if definition.inputSchema.truthy then
        validateAgainstSchema py toolName args definition.inputSchema
      else none
    match arguments with
    | .null => conform (.obj [])
    | .str text =>
      match py.loads text with
      | none => some s!"Tool arguments must be valid JSON for {py.repr toolName}"
      | some (.obj fields) => conform (.obj fields)
      | some _ => some s!"Tool arguments must be a JSON object for {py.repr toolName}"
    | .obj fields => conform (.obj fields)
    | other =>
      some s!"Tool arguments must be a dict for {py.repr toolName}, got {other.typeName}"

/-! ## Classification -/

/-- `w in text`. -/
def contains (w text : String) : Bool := text.toList.tails.any fun rest => w.toList.isPrefixOf rest

/-- `_classify_tool_kind`: by the words in the name, where there is no metadata. -/
def classifyToolKind (name : String) : OperationKind :=
  let nameLower := py.lower name
  if ["transfer", "wire", "send", "pay"].any (contains · nameLower) then .transfer
  else if ["delete", "remove", "purge", "close"].any (contains · nameLower) then .delete
  else if ["update", "modify", "change", "set", "write", "create", "add"].any
      (contains · nameLower) then .write
  else .read

/-- `_kind_from_metadata`. -/
def kindFromMetadata (t : ToolDefinition) : OperationKind :=
  if t.sideEffect then (if t.riskLevel = .critical then .transfer else .write) else .read

/-- A registered tool with side effects is never classified as a read. -/
theorem kindFromMetadata_ne_read {t : ToolDefinition} (h : t.sideEffect = true) :
    kindFromMetadata t ≠ .read := by
  rw [kindFromMetadata]
  rw [if_pos h]
  split <;> simp

end BankingAgent
