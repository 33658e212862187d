import BankingAgent.ToolCallRoundTrip
import Mathlib.Data.List.ReduceOption

/-!
# Provider errors and answers

The runtime takes a `RuntimeError` for a failure of the provider, and everything else for
something unexpected. Some statuses that are no success are not among those the parser names;
what comes with them is read as an answer. And a body of another shape than the parser expects
ends a successful response with whatever Python raises on the way. That is a `RuntimeError` only
by accident: `json.loads` raises one at what is nested too deeply.

* `readResponse_raisesRuntime_iff` — which bodies end in a `RuntimeError`.
* `exists_message_iff` — which bodies give a message.
* `provider_errors_iff` — which responses are treated as the runtime expects.
-/

namespace BankingAgent

open Traversal

/-! ## `RuntimeError` -/

/-- A `RuntimeError` is raised. -/
def RaisesRuntime {α : Type} (x : Except PyError α) : Prop := ∃ e, x = .error e ∧ e.IsRuntime

/-- None is. -/
def NoRuntime {α : Type} (x : Except PyError α) : Prop := ¬ RaisesRuntime x

section NoRuntime

variable {α β : Type}

/-- A `RuntimeError` comes from the first part of a computation or from the rest of it. -/
theorem raisesRuntime_bind_iff {x : Except PyError α} {f : α → Except PyError β} :
    RaisesRuntime (x.bind f) ↔ RaisesRuntime x ∨ ∃ a, x = .ok a ∧ RaisesRuntime (f a) := by
  constructor
  · rintro ⟨e, he, hruntime⟩
    obtain hx | ⟨a, hx, ha⟩ := bind_eq_error_iff.mp he
    · exact .inl ⟨e, hx, hruntime⟩
    · exact .inr ⟨a, hx, e, ha, hruntime⟩
  · rintro (⟨e, hx, hruntime⟩ | ⟨a, hx, e, ha, hruntime⟩)
    · exact ⟨e, bind_eq_error_iff.mpr (.inl hx), hruntime⟩
    · exact ⟨e, bind_eq_error_iff.mpr (.inr ⟨a, hx, ha⟩), hruntime⟩

theorem noRuntime_ok (a : α) : NoRuntime (.ok a) := nofun

theorem noRuntime_error {e : PyError} (h : ¬ e.IsRuntime) :
    NoRuntime (.error e : Except PyError α) :=
  fun ⟨_, he, hruntime⟩ => h (Except.error.inj he ▸ hruntime)

theorem NoRuntime.bind {x : Except PyError α} {f : α → Except PyError β} (hx : NoRuntime x)
    (hf : ∀ a, NoRuntime (f a)) : NoRuntime (x.bind f) := fun h =>
  (raisesRuntime_bind_iff.mp h).elim hx fun ⟨a, _, ha⟩ => hf a ha

theorem noRuntime_getOr (v : Json) (name : String) (default : Json) :
    NoRuntime (v.getOr name default) := by
  cases v with
  | obj fields => exact noRuntime_ok _
  | _ => exact noRuntime_error not_false

theorem noRuntime_item (v : Json) (name : String) : NoRuntime (v.item name) := by
  cases v with
  | obj fields =>
    rw [Json.item]
    split
    · exact noRuntime_ok _
    · exact noRuntime_error not_false
  | _ => exact noRuntime_error not_false

theorem noRuntime_choiceOf (data : Json) : NoRuntime (choiceOf data) := by
  cases data with
  | obj fields =>
    rw [choiceOf]
    split
    · exact noRuntime_ok _
    · split
      · split
        · exact noRuntime_ok _
        · exact noRuntime_ok _
        · exact noRuntime_error not_false
        · exact noRuntime_error not_false
      · exact noRuntime_ok _
  | _ => exact noRuntime_error not_false

theorem noRuntime_iterate (v : Json) : NoRuntime v.iterate := by
  cases v with
  | arr items => exact noRuntime_ok _
  | str s => exact noRuntime_ok _
  | obj fields => exact noRuntime_ok _
  | _ => exact noRuntime_error not_false

end NoRuntime

/-! ## Bodies that can be read -/

section Readable

variable (lib : ProviderLib)

/-- The dictionary the message is taken from: the body itself, an empty one, or the first of the
choices. -/
inductive ChoiceIn (body : List (String × Json)) : List (String × Json) → Prop where
  | body (h : (Json.obj body).get? "choices" = none) : ChoiceIn body body
  | empty (choices : Json) (h : (Json.obj body).get? "choices" = some choices)
      (hfalsy : choices.truthy = false) : ChoiceIn body []
  | first (choice : List (String × Json)) (rest : List Json)
      (h : (Json.obj body).get? "choices" = some (.arr (.obj choice :: rest))) :
      ChoiceIn body choice

/-- A tool call with a function that has a name and arguments. -/
structure NamesFunction (call function : List (String × Json)) (name arguments : Json) :
    Prop where
  get_function : (Json.obj call).get? "function" = some (.obj function)
  get_name : (Json.obj function).get? "name" = some name
  get_arguments : (Json.obj function).get? "arguments" = some arguments

/-- One with an id and arguments that, if they are a text, are the text of a value. -/
def IsDecodableCall (tc : Json) : Prop :=
  ∃ call function name arguments id, tc = .obj call ∧
    NamesFunction call function name arguments ∧ (Json.obj call).get? "id" = some id ∧
    ∀ text, arguments = .str text → ∃ v, lib.loads text = .ok v

/-- One whose arguments are a text that is nested too deeply. -/
def IsTooDeepCall (tc : Json) : Prop :=
  ∃ call function name text, tc = .obj call ∧ NamesFunction call function name (.str text) ∧
    lib.loads text = .error .recursionError

/-- A tool call with a name, an id and arguments that are an object, or the text of one. -/
structure ReadableCall (call function : List (String × Json)) (name : String)
    (arguments id : Json) : Prop extends NamesFunction call function (.str name) arguments where
  get_id : (Json.obj call).get? "id" = some id
  isObject : (∃ args, arguments = .obj args) ∨
    ∃ text args, arguments = .str text ∧ lib.loads text = .ok (.obj args)
  isId : id = .null ∨ ∃ s, id = .str s

/-- The item is such a tool call. -/
def IsReadableCall (tc : Json) : Prop :=
  ∃ call function name arguments id, tc = .obj call ∧
    ReadableCall lib call function name arguments id

/-- What the content is taken from, in this order. -/
def contentSources (data msg : Json) : List (Option Json) :=
  [msg.get? "content", msg.get? "reasoning_content", data.get? "content"]

/-- A message with readable tool calls, whose content, if there is any, is text or a list of texts
and dictionaries. -/
structure ReadableMessage (data msg : Json) : Prop where
  toolCalls : (rawToolCalls msg).truthy = false ∨
    ∃ items, rawToolCalls msg = .arr items ∧ ∀ tc ∈ items, IsReadableCall lib tc
  content : ∀ v, ((contentSources data msg).reduceOption.find? Json.truthy) = some v →
    v.isContent = true

/-- A body with such a message, or with a message that is no dictionary. -/
structure Readable (body choice : List (String × Json)) (msg : Json) : Prop where
  choiceIn : ChoiceIn body choice
  get_message : ((Json.obj choice).get? "message").getD (.obj []) = msg
  readable : msg.isDict = true → ReadableMessage lib (.obj body) msg
  usage : ∀ usage, (Json.obj body).get? "usage" = some usage → usage.isDict = true

/-- The body can be read. -/
def IsReadable (data : Json) : Prop :=
  ∃ body choice msg, data = .obj body ∧ Readable lib body choice msg

/-- The body has a message with a tool call that is nested too deeply, after some that are not. -/
def IsTooDeep (data : Json) : Prop :=
  ∃ body choice msg before tc after, data = .obj body ∧ ChoiceIn body choice ∧
    ((Json.obj choice).get? "message").getD (.obj []) = msg ∧
    rawToolCalls msg = .arr (before ++ tc :: after) ∧
    (∀ tc' ∈ before, IsDecodableCall lib tc') ∧ IsTooDeepCall lib tc

end Readable

/-! ## Which bodies give a message -/

section Message

variable {lib : ProviderLib} {config : ProviderConfig}

@[simp] theorem Except.bind_ok {ε α β : Type} (a : α) (f : α → Except ε β) :
    ((.ok a : Except ε α) >>= f) = f a := rfl

theorem Json.item_eq_ok {v w : Json} {name : String} :
    v.item name = .ok w ↔ ∃ fields, v = .obj fields ∧ (Json.obj fields).get? name = some w := by
  cases v with
  | obj fields => cases h : (Json.obj fields).get? name <;> simp [Json.item, h]
  | _ => simp [Json.item]

/-- The arguments of a tool call: the value of a text, and anything else as it is. -/
def argumentsOf (lib : ProviderLib) (arguments : Json) : Except PyError Json :=
  match arguments with
  | .str text => lib.loads text
  | v => .ok v

/-- **A tool call** with a function that has a name and arguments is decoded to them and its id. -/
theorem NamesFunction.decode {call function : List (String × Json)} {name arguments : Json}
    (h : NamesFunction call function name arguments) :
    decodeToolCall lib (.obj call) = (argumentsOf lib arguments).bind fun args =>
      ((Json.obj call).item "id").bind fun id => .ok ⟨name, args, id⟩ := by
  have hfunction : (Json.obj call).getOr "function" (.obj []) = .ok (.obj function) := by
    rw [Json.getOr, h.get_function, Option.getD_some]
  have harguments : (Json.obj function).getOr "arguments" .null = .ok arguments := by
    rw [Json.getOr, h.get_arguments, Option.getD_some]
  have hitem : (Json.obj call).item "function" = .ok (.obj function) :=
    Json.item_eq_ok.mpr ⟨_, rfl, h.get_function⟩
  have hname : (Json.obj function).item "name" = .ok name :=
    Json.item_eq_ok.mpr ⟨_, rfl, h.get_name⟩
  have hargs : (Json.obj function).item "arguments" = .ok arguments :=
    Json.item_eq_ok.mpr ⟨_, rfl, h.get_arguments⟩
  simp only [decodeToolCall, hfunction, harguments, Except.bind_ok]
  cases arguments with
  | str text =>
    simp only [hitem, hname, Except.bind_ok]
    rfl
  | _ =>
    simp only [hitem, hname, hargs, Except.bind_ok]
    rfl

/-- **Any other tool call** ends in an error of its shape. -/
theorem names_or_noRuntime (lib : ProviderLib) (tc : Json) :
    (∃ call function name arguments, tc = .obj call ∧
      NamesFunction call function name arguments) ∨
    ∃ e, decodeToolCall lib tc = .error e ∧ ¬ e.IsRuntime := by
  cases tc with
  | obj call =>
    cases hfunction : (Json.obj call).get? "function" with
    | none =>
      have hget : (Json.obj call).getOr "function" (.obj []) = .ok (.obj []) := by
        rw [Json.getOr, hfunction, Option.getD_none]
      refine .inr ⟨.keyError, ?_, not_false⟩
      rw [decodeToolCall, hget, Json.item, hfunction]
      rfl
    | some v =>
      have hget : (Json.obj call).getOr "function" (.obj []) = .ok v := by
        rw [Json.getOr, hfunction, Option.getD_some]
      have hitem : (Json.obj call).item "function" = .ok v :=
        Json.item_eq_ok.mpr ⟨_, rfl, hfunction⟩
      cases v with
      | obj function =>
        cases hname : (Json.obj function).get? "name" with
        | none =>
          have hno : (Json.obj function).item "name" = .error .keyError := by
            rw [Json.item, hname]
          have hargs : (Json.obj function).getOr "arguments" .null =
              .ok (((Json.obj function).get? "arguments").getD .null) := rfl
          refine .inr ⟨.keyError, ?_, not_false⟩
          simp only [decodeToolCall, hget, hargs, hitem, hno, Except.bind_ok]
          -- the name is asked for first, whatever the arguments are
          split
          · rfl
          · rfl
        | some name =>
          cases harguments : (Json.obj function).get? "arguments" with
          | none =>
            have hnull : (Json.obj function).getOr "arguments" .null = .ok .null := by
              rw [Json.getOr, harguments, Option.getD_none]
            have hargs : (Json.obj function).item "arguments" = .error .keyError := by
              rw [Json.item, harguments]
            have hnamed : (Json.obj function).item "name" = .ok name :=
              Json.item_eq_ok.mpr ⟨_, rfl, hname⟩
            refine .inr ⟨.keyError, ?_, not_false⟩
            simp only [decodeToolCall, hget, hitem, hnull, hnamed, hargs, Except.bind_ok]
            rfl
          | some arguments =>
            exact .inl ⟨call, function, name, arguments, rfl, hfunction, hname, harguments⟩
      | _ =>
        refine .inr ⟨.attributeError, ?_, not_false⟩
        rw [decodeToolCall, hget]
        rfl
  | _ => exact .inr ⟨.attributeError, rfl, not_false⟩

/-- What a tool call is decoded to. -/
theorem decodeToolCall_eq_ok {tc : Json} {decoded : DecodedCall} :
    decodeToolCall lib tc = .ok decoded ↔ ∃ call function arguments, tc = .obj call ∧
      NamesFunction call function decoded.name arguments ∧
      argumentsOf lib arguments = .ok decoded.args ∧
      (Json.obj call).get? "id" = some decoded.id := by
  constructor
  · intro h
    obtain ⟨call, function, name, arguments, rfl, hnames⟩ | ⟨e, he, -⟩ := names_or_noRuntime lib tc
    · obtain ⟨args, hargs, hrest⟩ := bind_eq_ok_iff.mp (hnames.decode ▸ h)
      obtain ⟨id, hget, hdecoded⟩ := bind_eq_ok_iff.mp hrest
      obtain rfl := Except.ok.inj hdecoded
      obtain ⟨_, hobj, hid⟩ := Json.item_eq_ok.mp hget
      obtain rfl := Json.obj.inj hobj
      exact ⟨call, function, arguments, rfl, hnames, hargs, hid⟩
    · cases he.symm.trans h
  · rintro ⟨call, function, arguments, rfl, hnames, hargs, hid⟩
    rw [hnames.decode, hargs, Json.item_eq_ok.mpr ⟨_, rfl, hid⟩]
    rfl

/-- The arguments are an object, if they are one or the text of one. -/
theorem argumentsOf_eq_obj {arguments : Json} {args : List (String × Json)} :
    argumentsOf lib arguments = .ok (.obj args) ↔
      arguments = .obj args ∨ ∃ text, arguments = .str text ∧ lib.loads text = .ok (.obj args) := by
  cases arguments with
  | str text => simp [argumentsOf]
  | _ => simp [argumentsOf]

/-- The arguments are a value, if they are no text or the text of one. -/
theorem exists_argumentsOf {arguments : Json} :
    (∃ args, argumentsOf lib arguments = .ok args) ↔
      ∀ text, arguments = .str text → ∃ v, lib.loads text = .ok v := by
  cases arguments with
  | str text => simp [argumentsOf]
  | _ => simp [argumentsOf]

/-- **A tool call** that can be read. -/
theorem isReadableCall_iff {tc : Json} :
    IsReadableCall lib tc ↔ ∃ decoded, decodeToolCall lib tc = .ok decoded ∧ decoded.IsToolCall := by
  constructor
  · rintro ⟨call, function, name, arguments, id, rfl, h⟩
    have hargs : ∃ args, argumentsOf lib arguments = .ok (.obj args) := by
      obtain ⟨args, rfl⟩ | ⟨text, args, rfl, hload⟩ := h.isObject
      · exact ⟨args, rfl⟩
      · exact ⟨args, hload⟩
    obtain ⟨args, hargs⟩ := hargs
    exact ⟨⟨.str name, .obj args, id⟩, decodeToolCall_eq_ok.mpr
      ⟨call, function, arguments, rfl, h.toNamesFunction, hargs, h.get_id⟩,
      ⟨_, rfl⟩, ⟨_, rfl⟩, h.isId⟩
  · rintro ⟨⟨name, args, id⟩, h, ⟨s, rfl⟩, ⟨fields, rfl⟩, hid⟩
    obtain ⟨call, function, arguments, rfl, hnames, hargs, hget⟩ := decodeToolCall_eq_ok.mp h
    refine ⟨call, function, s, arguments, id, rfl, hnames, hget, ?_, hid⟩
    obtain hobj | ⟨text, htext, hload⟩ := argumentsOf_eq_obj.mp hargs
    · exact .inl ⟨fields, hobj⟩
    · exact .inr ⟨text, fields, htext, hload⟩

/-- One that can be decoded. -/
theorem isDecodableCall_iff {tc : Json} :
    IsDecodableCall lib tc ↔ ∃ decoded, decodeToolCall lib tc = .ok decoded := by
  constructor
  · rintro ⟨call, function, name, arguments, id, rfl, hnames, hid, htext⟩
    obtain ⟨args, hargs⟩ := exists_argumentsOf.mpr htext
    exact ⟨⟨name, args, id⟩, decodeToolCall_eq_ok.mpr
      ⟨call, function, arguments, rfl, hnames, hargs, hid⟩⟩
  · rintro ⟨⟨name, args, id⟩, h⟩
    obtain ⟨call, function, arguments, rfl, hnames, hargs, hid⟩ := decodeToolCall_eq_ok.mp h
    exact ⟨call, function, name, arguments, id, rfl, hnames, hid,
      exists_argumentsOf.mp ⟨args, hargs⟩⟩

/-- `json.loads` raises a `RuntimeError` at what is nested too deeply. -/
theorem raisesRuntime_loads_iff (hlib : lib.Documented) {text : String} :
    RaisesRuntime (lib.loads text) ↔ lib.loads text = .error .recursionError := by
  constructor
  · rintro ⟨e, he, hruntime⟩
    obtain rfl | rfl | rfl := hlib.loads_error text e he
    · exact hruntime.elim
    · exact he
    · exact hruntime.elim
  · exact fun h => ⟨_, h, trivial⟩

/-- One that ends in a `RuntimeError`. -/
theorem isTooDeepCall_iff (hlib : lib.Documented) {tc : Json} :
    IsTooDeepCall lib tc ↔ RaisesRuntime (decodeToolCall lib tc) := by
  constructor
  · rintro ⟨call, function, name, text, rfl, hnames, hload⟩
    rw [hnames.decode]
    exact raisesRuntime_bind_iff.mpr (.inl ⟨_, hload, trivial⟩)
  · intro h
    obtain ⟨call, function, name, arguments, rfl, hnames⟩ | ⟨e, he, hquiet⟩ :=
      names_or_noRuntime lib tc
    · rw [hnames.decode] at h
      obtain hargs | ⟨args, -, hid⟩ := raisesRuntime_bind_iff.mp h
      · cases arguments with
        | str text =>
          exact ⟨call, function, name, text, rfl, hnames, (raisesRuntime_loads_iff hlib).mp hargs⟩
        | _ => exact absurd hargs (noRuntime_ok _)
      · exact absurd hid ((noRuntime_item _ "id").bind fun _ => noRuntime_ok _)
    · rw [he] at h
      exact absurd h (noRuntime_error hquiet)

/-- Only dictionaries can be read as tool calls. -/
theorem not_isReadableCall_str (s : String) : ¬ IsReadableCall lib (.str s) := by
  rintro ⟨_, _, _, _, _, h, -⟩
  cases h

theorem decodeToolCalls_iff {raw : Json} :
    (∃ calls, decodeToolCalls lib raw = .ok calls ∧ ∀ call ∈ calls, call.IsToolCall) ↔
      raw.truthy = false ∨ ∃ items, raw = .arr items ∧ ∀ tc ∈ items, IsReadableCall lib tc := by
  have hitems : ∀ items : List Json,
      (∃ calls, items.mapM (decodeToolCall lib) = .ok calls ∧ ∀ call ∈ calls, call.IsToolCall) ↔
        ∀ tc ∈ items, IsReadableCall lib tc := by
    intro items
    rw [exists_mapM_forall_iff]
    exact forall₂_congr fun tc _ => isReadableCall_iff.symm
  by_cases htruthy : raw.truthy = true
  · rw [decodeToolCalls, if_pos htruthy, htruthy]
    constructor
    · rintro ⟨calls, h, hall⟩
      obtain ⟨items, hiterate, h⟩ := bind_eq_ok_iff.mp h
      have hread := (hitems items).mp ⟨calls, h, hall⟩
      obtain ⟨item, hitem⟩ := List.exists_mem_of_ne_nil items (iterate_ne_nil htruthy hiterate)
      cases raw with
      | arr items' =>
        obtain rfl := Except.ok.inj hiterate
        exact .inr ⟨items', rfl, hread⟩
      | str s =>
        obtain rfl := Except.ok.inj hiterate
        obtain ⟨c, -, rfl⟩ := List.mem_map.mp hitem
        exact absurd (hread _ hitem) (not_isReadableCall_str _)
      | obj fields =>
        obtain rfl := Except.ok.inj hiterate
        obtain ⟨f, -, rfl⟩ := List.mem_map.mp hitem
        exact absurd (hread _ hitem) (not_isReadableCall_str _)
      | _ => simp [Json.iterate, Json.items?] at hiterate
    · rintro (hfalsy | ⟨items, rfl, hread⟩)
      · cases hfalsy
      · exact (hitems items).mpr hread
  · rw [decodeToolCalls, if_neg htruthy]
    have hfalsy : raw.truthy = false := by simpa using htruthy
    exact ⟨fun _ => .inl hfalsy, fun _ => ⟨[], rfl, fun _ h => absurd h List.not_mem_nil⟩⟩

/-- **The tool calls** end in a `RuntimeError` at the first that is nested too deeply. -/
theorem decodeToolCalls_raisesRuntime_iff (hlib : lib.Documented) {raw : Json} :
    RaisesRuntime (decodeToolCalls lib raw) ↔ ∃ before tc after,
      raw = .arr (before ++ tc :: after) ∧ (∀ tc' ∈ before, IsDecodableCall lib tc') ∧
      IsTooDeepCall lib tc := by
  have hitems : ∀ items : List Json, RaisesRuntime (items.mapM (decodeToolCall lib)) ↔
      ∃ before tc after, items = before ++ tc :: after ∧
        (∀ tc' ∈ before, IsDecodableCall lib tc') ∧ IsTooDeepCall lib tc := by
    intro items
    constructor
    · rintro ⟨e, he, hruntime⟩
      obtain ⟨before, tc, after, rfl, hbefore, htc⟩ := mapM_eq_error_iff.mp he
      exact ⟨before, tc, after, rfl, fun tc' h => isDecodableCall_iff.mpr (hbefore tc' h),
        (isTooDeepCall_iff hlib).mpr ⟨e, htc, hruntime⟩⟩
    · rintro ⟨before, tc, after, rfl, hbefore, htc⟩
      obtain ⟨e, he, hruntime⟩ := (isTooDeepCall_iff hlib).mp htc
      exact ⟨e, mapM_eq_error_iff.mpr ⟨before, tc, after, rfl,
        fun tc' h => isDecodableCall_iff.mp (hbefore tc' h), he⟩, hruntime⟩
  constructor
  · intro h
    rw [decodeToolCalls] at h
    split at h
    · obtain hiterate | ⟨items, hiterate, hdecode⟩ := raisesRuntime_bind_iff.mp h
      · exact absurd hiterate (noRuntime_iterate raw)
      · obtain ⟨before, tc, after, rfl, hbefore, htc⟩ := (hitems items).mp hdecode
        have hmem : tc ∈ before ++ tc :: after := List.mem_append_right _ List.mem_cons_self
        have hobj : ∃ call, tc = .obj call := by
          obtain ⟨call, _, _, _, rfl, -⟩ := htc
          exact ⟨call, rfl⟩
        obtain ⟨call, rfl⟩ := hobj
        -- the items of a text and of a dictionary are texts
        cases raw with
        | arr items' => exact ⟨before, _, after, congrArg _ (Except.ok.inj hiterate), hbefore, htc⟩
        | str s =>
          rw [← Except.ok.inj hiterate] at hmem
          obtain ⟨c, -, hc⟩ := List.mem_map.mp hmem
          cases hc
        | obj fields =>
          rw [← Except.ok.inj hiterate] at hmem
          obtain ⟨f, -, hf⟩ := List.mem_map.mp hmem
          cases hf
        | _ => simp [Json.iterate, Json.items?] at hiterate
    · exact absurd h (noRuntime_ok _)
  · rintro ⟨before, tc, after, rfl, h⟩
    have htruthy : (Json.arr (before ++ tc :: after)).truthy = true := by simp [Json.truthy]
    rw [decodeToolCalls, if_pos htruthy]
    exact raisesRuntime_bind_iff.mpr (.inr ⟨_, rfl, (hitems _).mpr ⟨before, tc, after, rfl, h⟩⟩)

/-- The first of the sources that is true, or no text at all. -/
def firstTrue (sources : List (Option Json)) : Json :=
  (sources.reduceOption.find? Json.truthy).getD (.str "")

/-- `source or ""`, and the sources after it if that is false. -/
theorem firstTrue_cons (source : Option Json) (rest : List (Option Json)) :
    firstTrue (source :: rest) =
      if ((source.getD (.str "")).or (.str "")).truthy then (source.getD (.str "")).or (.str "")
      else firstTrue rest := by
  have hempty : (Json.str "").truthy = false := rfl
  cases source with
  | none => simp [firstTrue, Json.or, hempty, List.reduceOption_cons_of_none]
  | some v =>
    cases hv : v.truthy with
    | true => simp [firstTrue, Json.or, hv, List.reduceOption_cons_of_some]
    | false => simp [firstTrue, Json.or, hv, hempty, List.reduceOption_cons_of_some]

theorem firstTrue_singleton (source : Option Json) :
    firstTrue [source] = (source.getD (.str "")).or (.str "") := by
  rw [firstTrue_cons]
  split
  · rfl
  · rename_i hfalsy
    cases source with
    | none => rfl
    | some v =>
      have hv : ¬ v.truthy = true := fun hv => hfalsy (by simp [Json.or, hv])
      rw [Option.getD_some, Json.or, if_neg hv]
      rfl

theorem contentOf_of_isDict {data msg : Json} (h : msg.isDict = true) :
    contentOf data msg = firstTrue (contentSources data msg) := by
  rw [contentOf, if_pos h, contentSources, firstTrue_cons, firstTrue_cons, firstTrue_singleton]
  dsimp only
  split
  · rfl
  · rfl

theorem contentOf_of_not_isDict {data msg : Json} (h : msg.isDict = false) :
    contentOf data msg = .str "" := by
  rw [contentOf, if_neg (by simp [h])]

/-- What is true comes through `or`, and no text does too. -/
theorem firstTrue_or (sources : List (Option Json)) :
    (firstTrue sources).or (.str "") = firstTrue sources := by
  rw [firstTrue]
  cases hfirst : sources.reduceOption.find? Json.truthy with
  | none => rfl
  | some v => rw [Option.getD_some, Json.or, if_pos (List.find?_some hfirst)]

theorem contentOf_or (data msg : Json) : (contentOf data msg).or (.str "") = contentOf data msg := by
  cases h : msg.isDict with
  | true => rw [contentOf_of_isDict h, firstTrue_or]
  | false => rw [contentOf_of_not_isDict h]; rfl

/-- What a message has to be for the parser and for `AIMessage`. -/
theorem readableMessage_iff {data msg : Json} :
    ((∃ calls, decodeToolCalls lib (rawToolCalls msg) = .ok calls ∧
        ∀ call ∈ calls, call.IsToolCall) ∧ (contentOf data msg).isContent = true) ↔
      (msg.isDict = true → ReadableMessage lib data msg) := by
  rw [decodeToolCalls_iff]
  cases h : msg.isDict with
  | true =>
    have hcontent : (firstTrue (contentSources data msg)).isContent = true ↔
        ∀ v, (contentSources data msg).reduceOption.find? Json.truthy = some v →
          v.isContent = true := by
      rw [firstTrue]
      cases (contentSources data msg).reduceOption.find? Json.truthy with
      | none => exact ⟨nofun, fun _ => rfl⟩
      | some v => simp
    rw [contentOf_of_isDict h, hcontent]
    exact ⟨fun ⟨hcalls, hsources⟩ _ => ⟨hcalls, hsources⟩,
      fun hread => ⟨(hread rfl).toolCalls, (hread rfl).content⟩⟩
  | false =>
    have hnone : (rawToolCalls msg).truthy = false := by
      cases msg with
      | obj fields => cases h
      | _ => rfl
    rw [contentOf_of_not_isDict h]
    exact ⟨fun _ hdict => Bool.noConfusion hdict, fun _ => ⟨.inl hnone, rfl⟩⟩

/-- The message is taken from a dictionary in the body. -/
theorem messageOf_eq_ok {data msg : Json} :
    messageOf data = .ok msg ↔ ∃ body choice, data = .obj body ∧ ChoiceIn body choice ∧
      ((Json.obj choice).get? "message").getD (.obj []) = msg := by
  constructor
  · intro h
    obtain ⟨v, hv, hmessage⟩ := bind_eq_ok_iff.mp h
    obtain ⟨choice, rfl, hmsg⟩ := Json.getOr_eq_ok.mp hmessage
    cases data with
    | obj body =>
      refine ⟨body, choice, rfl, ?_, hmsg⟩
      rw [choiceOf] at hv
      split at hv
      · rename_i hnone
        have hbody : body = choice := Json.obj.inj (Except.ok.inj hv)
        exact hbody ▸ .body hnone
      · rename_i choices hget
        split at hv
        · split at hv
          · obtain rfl := Except.ok.inj hv
            exact .first choice _ hget
          · cases hv
          · cases hv
          · cases hv
        · rename_i hfalsy
          have hempty : [] = choice := Json.obj.inj (Except.ok.inj hv)
          exact hempty ▸ .empty choices hget (by simpa using hfalsy)
    | _ => cases hv
  · rintro ⟨body, choice, rfl, hchoice, hmsg⟩
    refine bind_eq_ok_iff.mpr ⟨.obj choice, ?_, Json.getOr_eq_ok.mpr ⟨choice, rfl, hmsg⟩⟩
    cases hchoice with
    | body h => simp [choiceOf, h]
    | empty choices h hfalsy => simp [choiceOf, h, hfalsy]
    | first _ rest h => simp [choiceOf, h, Json.truthy]

theorem readResponse_exists {body : List (String × Json)} {msg : Json} {calls : List DecodedCall}
    (hmsg : messageOf (.obj body) = .ok msg)
    (hcalls : decodeToolCalls lib (rawToolCalls msg) = .ok calls)
    (husage : ∀ usage, (Json.obj body).get? "usage" = some usage → usage.isDict = true) :
    ∃ response, readResponse lib config (.obj body) = .ok response ∧
      response.toolCalls = calls ∧ response.content = contentOf (.obj body) msg := by
  have hget : ∃ usage, (Json.obj body).getOr "usage" (.obj []) = .ok (.obj usage) := by
    cases h : (Json.obj body).get? "usage" with
    | none => exact ⟨[], by rw [Json.getOr, h]; rfl⟩
    | some v =>
      have hv := husage v h
      cases v with
      | obj usage => exact ⟨usage, by rw [Json.getOr, h]; rfl⟩
      | _ => cases hv
  obtain ⟨usage, husage⟩ := hget
  simp only [readResponse, hmsg, hcalls, husage, Except.bind_ok]
  exact ⟨_, rfl, rfl, rfl⟩

/-- **The bodies that end in a `RuntimeError`.** -/
theorem readResponse_raisesRuntime_iff (hlib : lib.Documented) (data : Json) :
    RaisesRuntime ((readResponse lib config data).bind (toAIMessage lib)) ↔
      IsTooDeep lib data := by
  have hmessage : NoRuntime (messageOf data) :=
    (noRuntime_choiceOf data).bind fun c => noRuntime_getOr c "message" _
  have hrest : ∀ msg calls, NoRuntime (do
      let usage ← data.getOr "usage" (.obj [])
      return ({
        content := contentOf data msg
        toolCalls := calls
        usageInputTokens := ← usage.getOr "prompt_tokens" (.int 0)
        usageOutputTokens := ← usage.getOr "completion_tokens" (.int 0)
        requestId := ← data.getOr "id" (.str "")
        model := ← data.getOr "model" (.str config.model) } : ProviderResponse)) := by
    intro msg calls
    refine (noRuntime_getOr data "usage" _).bind fun usage => ?_
    refine (noRuntime_getOr usage "prompt_tokens" _).bind fun _ => ?_
    refine (noRuntime_getOr usage "completion_tokens" _).bind fun _ => ?_
    exact (noRuntime_getOr data "id" _).bind fun _ => (noRuntime_getOr data "model" _).bind
      fun _ => noRuntime_ok _
  have hvalidation : ∀ response, NoRuntime (toAIMessage lib response) := by
    intro response
    rw [toAIMessage]
    split
    · exact noRuntime_ok _
    · exact noRuntime_error not_false
  constructor
  · intro h
    obtain hread | ⟨response, -, hmsg⟩ := raisesRuntime_bind_iff.mp h
    · obtain hmsg | ⟨msg, hmsg, h⟩ := raisesRuntime_bind_iff.mp hread
      · exact absurd hmsg hmessage
      · obtain hcalls | ⟨calls, -, h⟩ := raisesRuntime_bind_iff.mp h
        · obtain ⟨body, choice, rfl, hchoice, hget⟩ := messageOf_eq_ok.mp hmsg
          obtain ⟨before, tc, after, hraw, hbefore, htc⟩ :=
            (decodeToolCalls_raisesRuntime_iff hlib).mp hcalls
          exact ⟨body, choice, msg, before, tc, after, rfl, hchoice, hget, hraw, hbefore, htc⟩
        · exact absurd h (hrest msg calls)
    · exact absurd hmsg (hvalidation response)
  · rintro ⟨body, choice, msg, before, tc, after, rfl, hchoice, hget, hraw, hbefore, htc⟩
    have hmsg : messageOf (.obj body) = .ok msg :=
      messageOf_eq_ok.mpr ⟨body, choice, rfl, hchoice, hget⟩
    have hcalls : RaisesRuntime (decodeToolCalls lib (rawToolCalls msg)) :=
      (decodeToolCalls_raisesRuntime_iff hlib).mpr ⟨before, tc, after, hraw, hbefore, htc⟩
    have hread : RaisesRuntime (readResponse lib config (.obj body)) :=
      raisesRuntime_bind_iff.mpr (.inr ⟨msg, hmsg, raisesRuntime_bind_iff.mpr (.inl hcalls)⟩)
    exact raisesRuntime_bind_iff.mpr (.inl hread)

theorem toAIMessage_iff (hlib : lib.Documented) {response : ProviderResponse}
    (hcontent : response.content.or (.str "") = response.content) :
    (∃ m, toAIMessage lib response = .ok m) ↔
      (∀ call ∈ response.toolCalls, call.IsToolCall) ∧ response.content.isContent = true := by
  -- without calls the message is made of the text alone, which is the same message
  have hcalls : (if response.toolCalls = [] then lib.aiMessage response.content []
      else lib.aiMessage response.content response.toolCalls) =
      lib.aiMessage response.content response.toolCalls := by
    split_ifs with hnil
    · rw [hnil]
    · rfl
  rw [and_comm, ← hlib.accepts]
  cases hm : lib.aiMessage response.content response.toolCalls with
  | none => simp [toAIMessage, hcontent, hcalls.trans hm]
  | some m => simp [toAIMessage, hcontent, hcalls.trans hm]

/-- **The bodies that give a message.** -/
theorem exists_message_iff (hlib : lib.Documented) (data : Json) :
    (∃ m, (readResponse lib config data).bind (toAIMessage lib) = .ok m) ↔
      IsReadable lib data := by
  constructor
  · rintro ⟨m, h⟩
    obtain ⟨response, hresponse, hmessage⟩ := bind_eq_ok_iff.mp h
    obtain ⟨msg, usage, hmsg, hcalls, hcontent, husage⟩ := readResponse_ok hresponse
    obtain ⟨body, choice, rfl, hchoice, hget⟩ := messageOf_eq_ok.mp hmsg
    have hor : response.content.or (.str "") = response.content := hcontent ▸ contentOf_or _ _
    obtain ⟨hvalid, htext⟩ := (toAIMessage_iff hlib hor).mp ⟨m, hmessage⟩
    refine ⟨body, choice, msg, rfl, hchoice, hget,
      readableMessage_iff.mp ⟨⟨_, hcalls, hvalid⟩, hcontent ▸ htext⟩, fun v hv => ?_⟩
    rw [Json.getOr, hv, Option.getD_some] at husage
    rw [Except.ok.inj husage]
    rfl
  · rintro ⟨body, choice, msg, rfl, h⟩
    obtain ⟨⟨calls, hcalls, hvalid⟩, htext⟩ := readableMessage_iff.mpr h.readable
    have hmsg : messageOf (.obj body) = .ok msg :=
      messageOf_eq_ok.mpr ⟨body, choice, rfl, h.choiceIn, h.get_message⟩
    obtain ⟨response, hresponse, rfl, hcontent⟩ :=
      readResponse_exists hmsg hcalls h.usage
    have hor : response.content.or (.str "") = response.content := hcontent ▸ contentOf_or _ _
    obtain ⟨m, hm⟩ := (toAIMessage_iff hlib hor).mpr ⟨hvalid, hcontent ▸ htext⟩
    exact ⟨m, bind_eq_ok_iff.mpr ⟨response, hresponse, hm⟩⟩

end Message

/-! ## Responses -/

section Contract

variable (lib : ProviderLib)

/-- What the runtime expects of a status: a message or a `RuntimeError` if it is a success, else a
`RuntimeError`. -/
def MeetsContract (status : ℕ) (outcome : Except PyError AIMessage) : Prop :=
  RaisesRuntime outcome ∨ (200 ≤ status ∧ status < 300 ∧ ∃ m, outcome = .ok m)

/-- The statuses the parser names. -/
def IsNamedStatus (status : ℕ) : Prop :=
  status = 400 ∨ status = 401 ∨ status = 403 ∨ status = 429 ∨ 500 ≤ status

/-- The status is one the parser names, or the body is no JSON or nested too deeply, or a tool call
of it is, or it comes with success and can be read. -/
def IsTreatable (status : ℕ) (raw : String) : Prop :=
  IsNamedStatus status ∨ lib.loads raw = .error .jsonDecodeError ∨
    lib.loads raw = .error .recursionError ∨
    ∃ data, lib.loads raw = .ok data ∧
      (IsTooDeep lib data ∨ (200 ≤ status ∧ status < 300 ∧ IsReadable lib data))

variable {lib} {config : ProviderConfig} {status : ℕ} {raw : String}

theorem parseResponse_of_named (lib : ProviderLib) (config : ProviderConfig) (raw : String)
    (h : IsNamedStatus status) :
    ∃ text, parseResponse lib config status raw = .error (.runtime text) := by
  rw [parseResponse]
  split_ifs with h₁ h₂ h₃ h₄ h₅
  · exact ⟨_, rfl⟩
  · exact ⟨_, rfl⟩
  · exact ⟨_, rfl⟩
  · exact ⟨_, rfl⟩
  · exact ⟨_, rfl⟩
  · rcases h with h | h | h | h | h
    · exact absurd h h₃
    · exact absurd h h₁
    · exact absurd h h₂
    · exact absurd h h₄
    · exact absurd h h₅

/-- Any other status goes by the body. -/
theorem parseResponse_of_not_named (h : ¬ IsNamedStatus status) :
    parseResponse lib config status raw =
      match lib.loads raw with
      | .ok data => readResponse lib config data
      | .error .jsonDecodeError => .error (.runtime
          s!"Provider returned malformed JSON (status {status}): {excerpt raw}")
      | .error e => .error e := by
  simp only [IsNamedStatus, not_or] at h
  obtain ⟨h₁, h₂, h₃, h₄, h₅⟩ := h
  exact (if_neg h₂).trans <| (if_neg h₃).trans <| (if_neg h₁).trans <| (if_neg h₄).trans <|
    if_neg h₅

/-- A status that is no success is never treated as one unless it comes with JSON. -/
theorem meetsContract_respond_iff (hlib : lib.Documented) :
    MeetsContract status (respond lib config status raw) ↔ IsTreatable lib status raw := by
  rw [IsTreatable]
  by_cases hnamed : IsNamedStatus status
  · obtain ⟨text, htext⟩ := parseResponse_of_named lib config raw hnamed
    rw [respond, htext]
    exact ⟨fun _ => .inl hnamed, fun _ => .inl ⟨_, rfl, trivial⟩⟩
  · rw [or_iff_right hnamed, respond, parseResponse_of_not_named hnamed]
    cases hloads : lib.loads raw with
    | ok data =>
      have hread : (∃ data', (Except.ok data : Except PyError Json) = .ok data' ∧
          (IsTooDeep lib data' ∨ (200 ≤ status ∧ status < 300 ∧ IsReadable lib data'))) ↔
          (IsTooDeep lib data ∨ (200 ≤ status ∧ status < 300 ∧ IsReadable lib data)) := by simp
      rw [MeetsContract, readResponse_raisesRuntime_iff hlib, exists_message_iff hlib, hread]
      exact ⟨fun h => .inr (.inr h), fun h => (h.resolve_left nofun).resolve_left nofun⟩
    | error e =>
      obtain rfl | rfl | rfl := hlib.loads_error raw e hloads
      · exact ⟨fun _ => .inl rfl, fun _ => .inl ⟨_, rfl, trivial⟩⟩
      · exact ⟨fun _ => .inr (.inl rfl), fun _ => .inl ⟨_, rfl, trivial⟩⟩
      · constructor
        · rintro (hraises | ⟨-, -, m, hm⟩)
          · exact absurd hraises (noRuntime_error not_false)
          · cases hm
        · rintro (hmalformed | hdeep | ⟨data, hdata, -⟩)
          · cases hmalformed
          · cases hdeep
          · cases hdata

end Contract

/-- **Responses of the provider** are treated as the runtime expects exactly if the status is one
the parser names, or the body is no JSON, or it or one of its tool calls is nested too deeply, or a
success comes with a body that can be read. -/
theorem provider_errors_iff (lib : ProviderLib) (hlib : lib.Documented) (p : DeepSeekProvider)
    (messages : List ChatMessage) (tools : List Json) (toolChoice : Option Json) (status : ℕ)
    (raw : String) (hopen : p.closed = false)
    (hrequest : p.request lib messages tools toolChoice = .ok (status, raw)) :
    MeetsContract status (p.invoke lib messages tools toolChoice) ↔ IsTreatable lib status raw := by
  have hinvoke : p.invoke lib messages tools toolChoice = respond lib p.config status raw := by
    rw [DeepSeekProvider.invoke, hopen, hrequest]
    rfl
  rw [hinvoke, meetsContract_respond_iff hlib]

/-! ## At an answer and at an error -/

/-- The text of a request with an empty conversation. -/
def emptyRequest : String :=
  braced ("\"model\": \"deepseek-v4-pro\", \"max_tokens\": 4096, \"temperature\": 0.0, " ++
    "\"messages\": []")

/-- A provider whose transport always returns the same. -/
def steadyProvider (status : ℕ) (raw : String) : DeepSeekProvider :=
  { config := demoProviderConfig, transport := fun _ _ _ => .ok (status, raw), closed := false }

/-- An answer that comes with success can be read. -/
theorem provider_errors_answer :
    MeetsContract 200 ((steadyProvider 200 answerBody).invoke
      (demoLib emptyRequest answerBody answerJson) [] [] none) := by
  refine (provider_errors_iff (demoLib emptyRequest answerBody answerJson)
    (demoLib_documented ..) (steadyProvider 200 answerBody) [] [] none 200 answerBody rfl rfl).mpr ?_
  refine .inr (.inr (.inr ⟨answerJson, rfl, .inr ⟨by decide, by decide, ?_⟩⟩))
  exact ⟨_, [("message", .obj [("content", .str "done")])], .obj [("content", .str "done")], rfl,
    .first _ [] rfl, rfl, fun _ => ⟨.inl rfl, fun v hv => Option.some_inj.mp hv ▸ rfl⟩, nofun⟩

/-- The body of an error. -/
def errorBody : String := braced "\"error\": \"not found\""

/-- A page that is not found becomes an answer without a text. -/
theorem not_found_is_an_answer :
    (steadyProvider 404 errorBody).invoke
        (demoLib emptyRequest errorBody (.obj [("error", .str "not found")])) [] [] none =
      .ok ⟨.str "", []⟩ ∧
    ¬ MeetsContract 404 ((steadyProvider 404 errorBody).invoke
      (demoLib emptyRequest errorBody (.obj [("error", .str "not found")])) [] [] none) := by
  have hinvoke : (steadyProvider 404 errorBody).invoke
      (demoLib emptyRequest errorBody (.obj [("error", .str "not found")])) [] [] none =
        .ok ⟨.str "", []⟩ := rfl
  refine ⟨hinvoke, ?_⟩
  rw [hinvoke]
  rintro (hraises | ⟨-, hstatus, -⟩)
  · exact absurd hraises (noRuntime_ok _)
  · exact absurd hstatus (by decide)

end BankingAgent
