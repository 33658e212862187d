import BankingAgent.Json

/-!
# Texts of JSON values

Which texts `json.loads` reads as a value: its grammar as a relation, and a lexer that knows no more
than whether it is inside a string literal. What `json.dumps` writes is such a text, whatever it is
told about escapes, blanks and the order of the fields.

* `Spells` — the text of a value, of the items of an array or of the fields of an object.
* `Loads` — what `json.loads` returns for a text.
* `Mode.run` — the lexer, which stops at a character that cannot stand where it is.
* `Spells.layout` — a text is made of plain characters and of literals for the strings of the value.
* `Loads.run` — a text that is read takes the lexer from outside a literal to outside of one.
* `Loads.inverted` — if the lexer can follow it from inside a literal as well, none of its strings
  has a backtick.
-/

namespace BankingAgent

/-- The quotation mark. -/
def quote : Char := Char.ofNat 0x22

/-- The backslash. -/
def backslash : Char := Char.ofNat 0x5c

/-- The backtick. -/
def backtick : Char := Char.ofNat 0x60

/-- `{` -/
def openBrace : Char := Char.ofNat 0x7b

/-- `}` -/
def closeBrace : Char := Char.ofNat 0x7d

/-! ## Dictionaries and their strings -/

namespace Json

mutual

/-- A value with its objects as dictionaries: of two fields with one name, the last counts. -/
def asDict : Json → Json
  | .arr items => .arr (asDictItems items)
  | .obj fields => .obj (asDictFields [] fields)
  | v => v

/-- `asDict` on each item of a list. -/
def asDictItems : List Json → List Json
  | [] => []
  | v :: rest => asDict v :: asDictItems rest

/-- The fields are put in one after the other. -/
def asDictFields (acc : List (String × Json)) : List (String × Json) → List (String × Json)
  | [] => acc
  | (k, v) :: rest => asDictFields (setField k (asDict v) acc) rest

end

mutual

/-- The strings of a value and the names of the fields in it, in their order. -/
def texts : Json → List (List Char)
  | .str s => [s.toList]
  | .arr items => itemsTexts items
  | .obj fields => fieldsTexts fields
  | _ => []

/-- The strings of the items. -/
def itemsTexts : List Json → List (List Char)
  | [] => []
  | v :: rest => texts v ++ itemsTexts rest

/-- The strings of the fields, with their names. -/
def fieldsTexts : List (String × Json) → List (List Char)
  | [] => []
  | (k, v) :: rest => k.toList :: (texts v ++ fieldsTexts rest)

end

theorem mem_fieldsTexts_setField {name : String} {v : Json} {acc : List (String × Json)}
    {s : List Char} (h : s ∈ fieldsTexts (setField name v acc)) :
    s = name.toList ∨ s ∈ texts v ∨ s ∈ fieldsTexts acc := by
  induction acc with
  | nil => simpa [setField, fieldsTexts] using h
  | cons f rest ih =>
    rw [setField] at h
    split at h
    · simp only [fieldsTexts, List.mem_cons, List.mem_append] at h ⊢
      tauto
    · simp only [fieldsTexts, List.mem_cons, List.mem_append] at h ⊢
      tauto

variable {s : List Char}

mutual

/-- A dictionary has no strings but those of the fields. -/
theorem mem_texts_of_asDict : ∀ v : Json, s ∈ texts v.asDict → s ∈ texts v
  | .null, h | .bool _, h | .int _, h | .float _, h | .str _, h => h
  | .arr items, h => mem_itemsTexts_of_asDict items h
  | .obj fields, h => (mem_fieldsTexts_of_asDict fields [] h).resolve_left List.not_mem_nil

/-- The same for items. -/
theorem mem_itemsTexts_of_asDict :
    ∀ items : List Json, s ∈ itemsTexts (asDictItems items) → s ∈ itemsTexts items
  | [], h => h
  | v :: rest, h => List.mem_append.mpr ((List.mem_append.mp h).imp (mem_texts_of_asDict v)
      (mem_itemsTexts_of_asDict rest))

/-- The same for fields. -/
theorem mem_fieldsTexts_of_asDict : ∀ (fields acc : List (String × Json)),
    s ∈ fieldsTexts (asDictFields acc fields) → s ∈ fieldsTexts acc ∨ s ∈ fieldsTexts fields
  | [], _, h => .inl h
  | (k, v) :: rest, acc, h => by
    rw [fieldsTexts, List.mem_cons, List.mem_append]
    rcases mem_fieldsTexts_of_asDict rest _ h with hacc | hrest
    · rcases mem_fieldsTexts_setField hacc with hname | hvalue | hacc
      · exact .inr (.inl hname)
      · exact .inr (.inr (.inl (mem_texts_of_asDict v hvalue)))
      · exact .inl hacc
    · exact .inr (.inr (.inr hrest))

end

end Json

/-! ## The grammar -/

/-- What may stand between tokens. -/
def Blank (text : List Char) : Prop := ∀ c ∈ text, c ∈ [' ', '\t', '\n', '\r']

/-- A hexadecimal digit. -/
def IsHex (c : Char) : Bool :=
  c.isDigit || ('a' ≤ c && c ≤ 'f') || ('A' ≤ c && c ≤ 'F')

/-- The value of a hexadecimal digit. -/
def hexDigit (c : Char) : ℕ :=
  if c.isDigit then c.toNat - 48 else if c ≤ 'F' then c.toNat - 55 else c.toNat - 87

/-- The value of hexadecimal digits. -/
def hexValue (digits : List Char) : ℕ := digits.foldl (fun n c => 16 * n + hexDigit c) 0

/-- Four hexadecimal digits, as they stand after a backslash and a `u`. -/
def IsUnit (digits : List Char) : Prop := digits.length = 4 ∧ ∀ c ∈ digits, IsHex c = true

/-- The escapes of one character, with what they stand for. -/
def shortEscapes : List (Char × Char) :=
  [(quote, quote), (backslash, backslash), ('/', '/'), ('b', Char.ofNat 8), ('f', Char.ofNat 12),
    ('n', '\n'), ('r', '\r'), ('t', '\t')]

/-- What stands between the quotation marks of a string literal. -/
inductive Literal : List Char → List Char → Prop where
  | nil : Literal [] []
  | raw {c : Char} {body s : List Char} : c ≠ quote → c ≠ backslash → 0x20 ≤ c.toNat →
      Literal body s → Literal (c :: body) (c :: s)
  | short {e c : Char} {body s : List Char} : (e, c) ∈ shortEscapes → Literal body s →
      Literal (backslash :: e :: body) (c :: s)
  | unit {digits : List Char} {c : Char} {body s : List Char} : IsUnit digits →
      hexValue digits = c.toNat → Literal body s →
      Literal (backslash :: 'u' :: (digits ++ body)) (c :: s)
  /-- a surrogate pair -/
  | pair {high low : List Char} {c : Char} {body s : List Char} : IsUnit high → IsUnit low →
      0xd800 ≤ hexValue high → hexValue high < 0xdc00 → 0xdc00 ≤ hexValue low →
      hexValue low < 0xe000 →
      c.toNat = 0x10000 + (hexValue high - 0xd800) * 0x400 + (hexValue low - 0xdc00) →
      Literal body s →
      Literal (backslash :: 'u' :: (high ++ backslash :: 'u' :: (low ++ body))) (c :: s)

/-- A string literal. -/
def quoted (body : List Char) : List Char := quote :: (body ++ [quote])

/-- Digits, at least one. -/
def IsDigits (digits : List Char) : Prop := digits ≠ [] ∧ ∀ c ∈ digits, c.isDigit = true

/-- The text of a natural number, which has no leading zero. -/
def IsNat (digits : List Char) : Prop :=
  IsDigits digits ∧ (digits.head? = some '0' → digits = ['0'])

/-- The value of decimal digits. -/
def decimal (digits : List Char) : ℕ := digits.foldl (fun n c => 10 * n + (c.toNat - 48)) 0

/-- The text of a float: a number with a fraction or an exponent, or a name. -/
inductive FloatLiteral : List Char → Prop where
  | name {text : List Char} : text ∈ ["NaN".toList, "Infinity".toList, "-Infinity".toList] →
      FloatLiteral text
  | number {sign whole fraction exponent : List Char} : sign ∈ [[], ['-']] → IsNat whole →
      (fraction = [] ∨ ∃ digits, IsDigits digits ∧ fraction = '.' :: digits) →
      (exponent = [] ∨ ∃ mark ∈ ['e', 'E'], ∃ sign ∈ [[], ['+'], ['-']], ∃ digits,
        IsDigits digits ∧ exponent = mark :: (sign ++ digits)) →
      (fraction ≠ [] ∨ exponent ≠ []) →
      FloatLiteral (sign ++ whole ++ fraction ++ exponent)

/-- What a text can spell. -/
inductive Fragment : Type where
  | value (v : Json)
  | items (vs : List Json)
  | fields (fs : List (String × Json))

/-- The strings of a fragment. -/
def Fragment.texts : Fragment → List (List Char)
  | .value v => v.texts
  | .items vs => Json.itemsTexts vs
  | .fields fs => Json.fieldsTexts fs

variable (canon : List Char → String)

/-- The grammar of `json.loads`; `canon` is the `repr` of the float that a text stands for. -/
inductive Spells : Fragment → List Char → Prop where
  | null : Spells (.value .null) "null".toList
  | boolTrue : Spells (.value (.bool true)) "true".toList
  | boolFalse : Spells (.value (.bool false)) "false".toList
  | nat {digits : List Char} : IsNat digits → Spells (.value (.int (decimal digits))) digits
  | negative {digits : List Char} : IsNat digits →
      Spells (.value (.int (-decimal digits))) ('-' :: digits)
  | float {text : List Char} : FloatLiteral text → Spells (.value (.float (canon text))) text
  | str {body s : List Char} : Literal body s →
      Spells (.value (.str (String.ofList s))) (quoted body)
  | arr {vs : List Json} {text : List Char} : Spells (.items vs) text →
      Spells (.value (.arr vs)) ('[' :: (text ++ [']']))
  | obj {fs : List (String × Json)} {text : List Char} : Spells (.fields fs) text →
      Spells (.value (.obj fs)) (openBrace :: (text ++ [closeBrace]))
  | noItems {gap : List Char} : Blank gap → Spells (.items []) gap
  | lastItem {v : Json} {before text after : List Char} : Blank before → Spells (.value v) text →
      Blank after → Spells (.items [v]) (before ++ text ++ after)
  | item {v : Json} {vs : List Json} {before text after rest : List Char} : Blank before →
      Spells (.value v) text → Blank after → vs ≠ [] → Spells (.items vs) rest →
      Spells (.items (v :: vs)) (before ++ text ++ after ++ ',' :: rest)
  | noFields {gap : List Char} : Blank gap → Spells (.fields []) gap
  | lastField {body k : List Char} {v : Json} {before colon between text after : List Char} :
      Blank before → Literal body k → Blank colon → Blank between → Spells (.value v) text →
      Blank after → Spells (.fields [(String.ofList k, v)])
        (before ++ quoted body ++ colon ++ ':' :: (between ++ text ++ after))
  | field {body k : List Char} {v : Json} {fs : List (String × Json)}
      {before colon between text after rest : List Char} :
      Blank before → Literal body k → Blank colon → Blank between → Spells (.value v) text →
      Blank after → fs ≠ [] → Spells (.fields fs) rest →
      Spells (.fields ((String.ofList k, v) :: fs))
        (before ++ quoted body ++ colon ++ ':' :: (between ++ text ++ after) ++ ',' :: rest)

/-- `json.loads(text)` is the value. -/
def Loads (text : List Char) (v : Json) : Prop :=
  ∃ before body after w, text = before ++ body ++ after ∧ Blank before ∧ Blank after ∧
    Spells canon (.value w) body ∧ w.asDict = v

/-! ## The lexer -/

/-- Where the lexer is: outside a string literal, inside of one, or behind a backslash. -/
inductive Mode : Type where
  | outside
  | inside
  | escaped
  deriving DecidableEq

namespace Mode

/-- One character; there is no backslash and no backtick outside a literal, and no backtick behind a
backslash. -/
def next : Mode → Char → Option Mode
  | .outside, c =>
    if c = quote then some .inside
    else if c = backslash ∨ c = backtick then none
    else some .outside
  | .inside, c =>
    if c = quote then some .outside
    else if c = backslash then some .escaped
    else some .inside
  | .escaped, c => if c = backtick then none else some .inside

/-- The lexer. -/
def run (m : Mode) (text : List Char) : Option Mode := text.foldlM next m

/-- A character that leaves the lexer where it is. -/
def Plain (c : Char) : Prop := c ≠ quote ∧ c ≠ backslash ∧ c ≠ backtick

instance : DecidablePred Plain := fun _ => inferInstanceAs (Decidable (_ ∧ _ ∧ _))

variable {m m' : Mode} {c : Char} {s t : List Char}

@[simp] theorem run_nil : m.run [] = some m := rfl

@[simp] theorem run_cons : m.run (c :: t) = (m.next c).bind fun m' => m'.run t := rfl

@[simp] theorem run_append : m.run (s ++ t) = (m.run s).bind fun m' => m'.run t :=
  List.foldlM_append

@[simp] theorem outside_quote : outside.next quote = some .inside := rfl

@[simp] theorem outside_backslash : outside.next backslash = none := rfl

@[simp] theorem outside_backtick : outside.next backtick = none := rfl

@[simp] theorem inside_quote : inside.next quote = some .outside := rfl

@[simp] theorem inside_backslash : inside.next backslash = some .escaped := rfl

theorem inside_other (hquote : c ≠ quote) (hbackslash : c ≠ backslash) :
    inside.next c = some .inside := by
  rw [next, if_neg hquote, if_neg hbackslash]

theorem escaped_other (h : c ≠ backtick) : escaped.next c = some .inside := if_neg h

theorem escaped_u : escaped.next 'u' = some .inside := rfl

theorem run_append_eq_some : m.run (s ++ t) = some m' ↔
    ∃ between, m.run s = some between ∧ between.run t = some m' := by
  rw [run_append, Option.bind_eq_some_iff]

theorem next_plain (hc : Plain c) (hm : m ≠ .escaped) : m.next c = some m := by
  cases m with
  | outside => simp [next, hc.1, hc.2.1, hc.2.2]
  | inside => simp [next, hc.1, hc.2.1]
  | escaped => exact absurd rfl hm

/-- Plain text is skipped. -/
theorem run_plain (ht : ∀ c ∈ t, Plain c) (hm : m ≠ .escaped) : m.run t = some m := by
  induction t with
  | nil => rfl
  | cons c t ih =>
    rw [run_cons, next_plain (ht c List.mem_cons_self) hm, Option.bind_some]
    exact ih fun d hd => ht d (List.mem_cons_of_mem c hd)

theorem run_cons_plain (hc : Plain c) (hm : m ≠ .escaped) : m.run (c :: t) = m.run t := by
  rw [run_cons, next_plain hc hm, Option.bind_some]

theorem run_append_plain (hs : ∀ c ∈ s, Plain c) (hm : m ≠ .escaped) :
    m.run (s ++ t) = m.run t := by
  rw [run_append, run_plain hs hm, Option.bind_some]

end Mode

/-! ## What the lexer does on a text -/

section Texts

open Mode

variable {m : Mode} {text body s digits : List Char} {f : Fragment} {v : Json}

theorem plain_of_all (text : List Char) (h : text.all (fun c => decide (Plain c)) = true) :
    ∀ c ∈ text, Plain c :=
  fun c hc => of_decide_eq_true (List.all_eq_true.mp h c hc)

theorem plain_openBracket : Plain '[' := by decide

theorem plain_openBrace : Plain openBrace := by decide

theorem plain_comma : Plain ',' := by decide

theorem plain_colon : Plain ':' := by decide

theorem plain_minus : Plain '-' := by decide

theorem plain_of_blank (h : Blank text) : ∀ c ∈ text, Plain c :=
  fun c hc => plain_of_all [' ', '\t', '\n', '\r'] (by decide) c (h c hc)

theorem plain_of_isHex {c : Char} (h : IsHex c = true) : Plain c := by
  refine ⟨?_, ?_, ?_⟩ <;> rintro rfl <;> exact absurd h (by decide)

theorem plain_of_isDigit {c : Char} (h : c.isDigit = true) : Plain c := by
  refine ⟨?_, ?_, ?_⟩ <;> rintro rfl <;> exact absurd h (by decide)

theorem IsDigits.plain (h : IsDigits digits) : ∀ c ∈ digits, Plain c :=
  fun c hc => plain_of_isDigit (h.2 c hc)

/-- A sign, or none. -/
theorem plain_of_sign {sign : List Char} (h : sign ∈ [[], ['+'], ['-']]) : ∀ c ∈ sign, Plain c := by
  simp only [List.mem_cons, List.not_mem_nil, or_false] at h
  rcases h with rfl | rfl | rfl <;> exact plain_of_all _ (by decide)

theorem FloatLiteral.plain (h : FloatLiteral text) : ∀ c ∈ text, Plain c := by
  cases h with
  | name h =>
    simp only [List.mem_cons, List.not_mem_nil, or_false] at h
    rcases h with rfl | rfl | rfl <;> exact plain_of_all _ (by decide)
  | @number sign whole fraction exponent hsign hwhole hfraction hexponent _ =>
    intro c hc
    simp only [List.mem_append] at hc
    rcases hc with ((hc | hc) | hc) | hc
    · refine plain_of_sign ?_ c hc
      simp only [List.mem_cons, List.not_mem_nil, or_false] at hsign ⊢
      exact hsign.imp_right .inr
    · exact hwhole.1.plain c hc
    · rcases hfraction with rfl | ⟨digits, hdigits, rfl⟩
      · cases hc
      · rcases List.mem_cons.mp hc with rfl | hc
        · decide
        · exact hdigits.plain c hc
    · rcases hexponent with rfl | ⟨mark, hmark, sign, hsign, digits, hdigits, rfl⟩
      · cases hc
      · rcases List.mem_cons.mp hc with rfl | hc
        · exact plain_of_all ['e', 'E'] (by decide) c hmark
        · rcases List.mem_append.mp hc with hc | hc
          · exact plain_of_sign hsign c hc
          · exact hdigits.plain c hc

theorem IsUnit.run (h : IsUnit digits) : inside.run digits = some inside :=
  run_plain (fun c hc => plain_of_isHex (h.2 c hc)) (by decide)

theorem backtick_ne_escape {e c : Char} (h : (e, c) ∈ shortEscapes) : backtick ≠ e := by
  have hall : shortEscapes.all (fun escape => backtick ≠ escape.1) = true := by decide
  exact of_decide_eq_true (List.all_eq_true.mp hall (e, c) h)

/-- The body of a literal ends inside of it. -/
theorem Literal.run (h : Literal body s) : inside.run body = some inside := by
  induction h with
  | nil => rfl
  | raw hquote hbackslash _ _ ih => simpa [inside_other hquote hbackslash] using ih
  | short hescape _ ih =>
    simpa [escaped_other (backtick_ne_escape hescape).symm] using ih
  | unit hunit _ _ ih => simpa [escaped_u, hunit.run] using ih
  | pair hhigh hlow _ _ _ _ _ _ ih => simpa [escaped_u, hhigh.run, hlow.run] using ih

/-- A literal is passed from outside to outside. -/
theorem Literal.run_quoted (h : Literal body s) : outside.run (quoted body) = some outside := by
  simp [quoted, h.run]

/-- A backtick in the body is one of the string, since no escape has one. -/
theorem Literal.mem_of_mem (h : Literal body s) (hmem : backtick ∈ body) : backtick ∈ s := by
  have hunit {digits : List Char} (h : IsUnit digits) : backtick ∉ digits :=
    fun hmem => (plain_of_isHex (h.2 _ hmem)).2.2 rfl
  have hfixed : backtick ≠ backslash ∧ backtick ≠ 'u' := by decide
  induction h with
  | nil => cases hmem
  | raw _ _ _ _ ih => exact List.mem_cons.mpr ((List.mem_cons.mp hmem).imp id ih)
  | short hescape _ ih =>
    simp only [List.mem_cons, hfixed, backtick_ne_escape hescape, false_or] at hmem
    exact List.mem_cons_of_mem _ (ih hmem)
  | unit hdigits _ _ ih =>
    simp only [List.mem_cons, List.mem_append, hfixed, hunit hdigits, false_or] at hmem
    exact List.mem_cons_of_mem _ (ih hmem)
  | pair hhigh hlow _ _ _ _ _ _ ih =>
    simp only [List.mem_cons, List.mem_append, hfixed, hunit hhigh, hunit hlow, false_or] at hmem
    exact List.mem_cons_of_mem _ (ih hmem)

/-- If the lexer takes the body of a literal for something outside of one, there is no backtick and
no escape in it. -/
theorem Literal.run_outside (h : Literal body s) {m : Mode} (hrun : outside.run body = some m) :
    m = .outside ∧ backtick ∉ s := by
  induction h with
  | nil => exact ⟨(Option.some.inj hrun).symm, List.not_mem_nil⟩
  | @raw c body s hquote hbackslash _ _ ih =>
    by_cases htick : c = backtick
    · subst htick
      simp at hrun
    · rw [run_cons, next_plain ⟨hquote, hbackslash, htick⟩ (by decide), Option.bind_some] at hrun
      obtain ⟨hm, hs⟩ := ih hrun
      exact ⟨hm, fun hmem => (List.mem_cons.mp hmem).elim (fun heq => htick heq.symm) hs⟩
  | short _ _ _ => simp at hrun
  | unit _ _ _ _ => simp at hrun
  | pair _ _ _ _ _ _ _ _ _ => simp at hrun

/-- A literal is passed from inside to inside only if its string has no backtick. -/
theorem Literal.run_quoted_inverted (h : Literal body s) {m : Mode}
    (hrun : inside.run (quoted body) = some m) : m = .inside ∧ backtick ∉ s := by
  rw [quoted, run_cons, inside_quote, Option.bind_some, run_append_eq_some] at hrun
  obtain ⟨between, hbody, hclose⟩ := hrun
  obtain ⟨rfl, hs⟩ := h.run_outside hbody
  exact ⟨(Option.some.inj hclose).symm, hs⟩

/-! ## Layouts -/

/-- A text as plain characters and string literals, with the strings these stand for. -/
inductive Layout : List Char → List (List Char) → Prop where
  | nil : Layout [] []
  | plain {c : Char} {text : List Char} {ss : List (List Char)} : Plain c → Layout text ss →
      Layout (c :: text) ss
  | literal {body s text : List Char} {ss : List (List Char)} : Literal body s → Layout text ss →
      Layout (quoted body ++ text) (s :: ss)

variable {text' : List Char} {ss ss' : List (List Char)}

theorem Layout.append (h : Layout text ss) (h' : Layout text' ss') :
    Layout (text ++ text') (ss ++ ss') := by
  induction h with
  | nil => exact h'
  | plain hc _ ih => exact .plain hc ih
  | literal hbody _ ih =>
    rw [List.append_assoc]
    exact .literal hbody ih

theorem Layout.of_plain (h : ∀ c ∈ text, Plain c) : Layout text [] := by
  induction text with
  | nil => exact .nil
  | cons c text ih =>
    exact .plain (h c List.mem_cons_self) (ih fun d hd => h d (List.mem_cons_of_mem c hd))

/-- Plain text behind a layout. -/
theorem Layout.append_plain (h : Layout text ss) (h' : ∀ c ∈ text', Plain c) :
    Layout (text ++ text') ss := by
  have happend := h.append (Layout.of_plain h')
  rwa [List.append_nil] at happend

/-- Plain text before a layout. -/
theorem Layout.plain_append (h : ∀ c ∈ text, Plain c) (h' : Layout text' ss) :
    Layout (text ++ text') ss :=
  (Layout.of_plain h).append h'

/-- The layout of a field. -/
theorem Layout.field {before body k colon between after : List Char} (hbefore : Blank before)
    (hname : Literal body k) (hcolon : Blank colon) (hbetween : Blank between)
    (hvalue : Layout text ss) (hafter : Blank after) :
    Layout (before ++ quoted body ++ colon ++ ':' :: (between ++ text ++ after)) (k :: ss) := by
  have hvalue := (hvalue.plain_append (plain_of_blank hbetween)).append_plain
    (plain_of_blank hafter)
  have hrest := (Layout.plain plain_colon hvalue).plain_append (plain_of_blank hcolon)
  have hfield := (Layout.literal hname hrest).plain_append (plain_of_blank hbefore)
  rwa [← List.append_assoc, ← List.append_assoc] at hfield

/-- A layout is passed from outside to outside. -/
theorem Layout.run (h : Layout text ss) : outside.run text = some outside := by
  induction h with
  | nil => rfl
  | plain hc _ ih => rwa [run_cons_plain hc (by decide)]
  | literal hbody _ ih => rwa [run_append, hbody.run_quoted, Option.bind_some]

/-- A layout that is passed from inside to somewhere is passed to inside, and its strings have no
backtick. -/
theorem Layout.run_inverted (h : Layout text ss) {m : Mode} (hrun : inside.run text = some m) :
    m = .inside ∧ ∀ s ∈ ss, backtick ∉ s := by
  induction h with
  | nil => exact ⟨(Option.some.inj hrun).symm, by rintro s ⟨⟩⟩
  | plain hc _ ih =>
    rw [run_cons_plain hc (by decide)] at hrun
    exact ih hrun
  | literal hbody _ ih =>
    obtain ⟨between, hliteral, hrest⟩ := run_append_eq_some.mp hrun
    obtain ⟨rfl, hs⟩ := hbody.run_quoted_inverted hliteral
    obtain ⟨hm, hss⟩ := ih hrest
    exact ⟨hm, List.forall_mem_cons.mpr ⟨hs, hss⟩⟩

/-- A backtick in a layout is in one of its strings. -/
theorem Layout.exists_mem (h : Layout text ss) (hmem : backtick ∈ text) :
    ∃ s ∈ ss, backtick ∈ s := by
  induction h with
  | nil => cases hmem
  | plain hc _ ih =>
    exact ih ((List.mem_cons.mp hmem).resolve_left fun heq => hc.2.2 heq.symm)
  | @literal body s text ss hbody _ ih =>
    have hne : backtick ≠ quote := by decide
    rcases List.mem_append.mp hmem with hliteral | hrest
    · have hbodymem : backtick ∈ body := by simpa [quoted, hne] using hliteral
      exact ⟨s, List.mem_cons_self, hbody.mem_of_mem hbodymem⟩
    · obtain ⟨s', hs', htick⟩ := ih hrest
      exact ⟨s', List.mem_cons_of_mem s hs', htick⟩

variable {canon : List Char → String}

/-- **The literals of a text** stand for the strings of what it spells; all else is plain. -/
theorem Spells.layout (h : Spells canon f text) : Layout text f.texts := by
  induction h with
  | null => exact .of_plain (plain_of_all _ (by decide))
  | boolTrue => exact .of_plain (plain_of_all _ (by decide))
  | boolFalse => exact .of_plain (plain_of_all _ (by decide))
  | nat hdigits => exact .of_plain hdigits.1.plain
  | negative hdigits => exact .plain plain_minus (.of_plain hdigits.1.plain)
  | float hfloat => exact .of_plain hfloat.plain
  | str hbody =>
    have hliteral := Layout.literal hbody .nil
    rw [List.append_nil] at hliteral
    rwa [Fragment.texts, Json.texts, String.toList_ofList]
  | arr _ ih =>
    exact .plain plain_openBracket (ih.append_plain (plain_of_all _ (by decide)))
  | obj _ ih =>
    exact .plain plain_openBrace (ih.append_plain (plain_of_all _ (by decide)))
  | noItems hgap => exact .of_plain (plain_of_blank hgap)
  | lastItem hbefore _ hafter ih =>
    rw [Fragment.texts, Json.itemsTexts, Json.itemsTexts, List.append_nil]
    exact (ih.plain_append (plain_of_blank hbefore)).append_plain (plain_of_blank hafter)
  | item hbefore _ hafter _ _ ih ihrest =>
    have hitem := (ih.plain_append (plain_of_blank hbefore)).append_plain (plain_of_blank hafter)
    exact hitem.append (.plain plain_comma ihrest)
  | noFields hgap => exact .of_plain (plain_of_blank hgap)
  | lastField hbefore hname hcolon hbetween _ hafter ih =>
    rw [Fragment.texts, Json.fieldsTexts, Json.fieldsTexts, List.append_nil, String.toList_ofList]
    exact Layout.field hbefore hname hcolon hbetween ih hafter
  | field hbefore hname hcolon hbetween _ hafter _ _ ih ihrest =>
    rw [Fragment.texts, Json.fieldsTexts, String.toList_ofList]
    exact (Layout.field hbefore hname hcolon hbetween ih hafter).append (.plain plain_comma ihrest)

/-! ## What is read -/

/-- What is read has the strings of the literals, short of fields that are replaced. -/
theorem Loads.layout (h : Loads canon text v) : ∃ ss, Layout text ss ∧ v.texts ⊆ ss := by
  obtain ⟨before, body, after, w, rfl, hbefore, hafter, hspells, rfl⟩ := h
  exact ⟨w.texts, (hspells.layout.plain_append (plain_of_blank hbefore)).append_plain
    (plain_of_blank hafter), fun s hs => Json.mem_texts_of_asDict w hs⟩

/-- **A text that is read** takes the lexer from outside a literal to outside of one. -/
theorem Loads.run (h : Loads canon text v) : outside.run text = some outside := by
  obtain ⟨ss, hlayout, -⟩ := h.layout
  exact hlayout.run

/-- **A text that is read**, and that the lexer can follow from inside a literal, has no backtick in
any of its strings. -/
theorem Loads.inverted (h : Loads canon text v) (hrun : (inside.run text).isSome = true) :
    ∀ s ∈ v.texts, backtick ∉ s := by
  obtain ⟨ss, hlayout, hsub⟩ := h.layout
  obtain ⟨m, hm⟩ := Option.isSome_iff_exists.mp hrun
  exact fun s hs => (hlayout.run_inverted hm).2 s (hsub hs)

/-- What is spelled is read, if no dictionary has a name twice. -/
theorem Spells.loads (h : Spells canon (.value v) text) (hdict : v.asDict = v) :
    Loads canon text v := by
  have hblank : Blank [] := by rintro c ⟨⟩
  exact ⟨[], text, [], v, by simp, hblank, hblank, h, hdict⟩

end Texts

end BankingAgent
