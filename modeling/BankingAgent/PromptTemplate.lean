import BankingAgent.Json
import BankingAgent.OrderedDict
import BankingAgent.Search.Replacement

/-!
# `prompt_registry.py`: rendering a prompt

`render` replaces the placeholders of the variables one variable after the other, each in what the
steps before have made of the template. Text that came with a value is searched again for the
placeholders of the variables behind it, so that the order of the variables matters.

* `render_iff` — the placeholders of the template are filled in at once, exactly if filling in some
  of them makes no other one.
* `renders_of_plain_iff` — for names without braces, filling in all the others is enough to see it.
* `renders_one` — a single variable is always filled in right.
-/

namespace BankingAgent

open Replacement

/-! ## The model -/

/-- `PromptTemplate`. -/
structure PromptTemplate : Type where
  template : String := ""

/-- `text.replace(old, new)`, where `old` is not empty. -/
def strReplace (old new text : String) : String :=
  String.ofList (replace old.toList new.toList text.toList)

/-- `PromptTemplate.render`. -/
def PromptTemplate.render (prompt : PromptTemplate) (vars : OrderedDict String String) :
    String :=
  vars.entries.foldl
    (fun result (key, value) => strReplace (braced key) value result) prompt.template

/-! ## Filling in at once -/

/-- The characters of the placeholder of a variable. -/
def placeholder (key : String) : List Char := bracketed '{' '}' String.toList key

/-- The value of a variable, in characters. -/
def valueOf (vars : OrderedDict String String) (key : String) : Option (List Char) :=
  (vars.get? key).map String.toList

/-- The placeholders of the variables in the template, and the characters around them. -/
def PromptTemplate.pieces (prompt : PromptTemplate) (vars : OrderedDict String String) :
    List (Token String Char) :=
  parse placeholder (vars.entries.map Prod.fst) prompt.template.toList

/-- The template with each placeholder of a variable replaced by its value. -/
def PromptTemplate.filledIn (prompt : PromptTemplate) (vars : OrderedDict String String) :
    String :=
  String.ofList (spell placeholder (fill (valueOf vars) (prompt.pieces vars)))

/-- The variables are filled in at once. -/
structure RendersAtOnce (prompt : PromptTemplate) (vars : OrderedDict String String) :
    Prop where
  /-- in every order, the text is the template with each placeholder replaced by its value -/
  filled : ∀ order : OrderedDict String String, order.entries.Perm vars.entries →
    prompt.render order = prompt.filledIn vars
  /-- in every order, a step finds its placeholder only where the template has it -/
  unexpanded : ∀ (before : OrderedDict String String) key value rest,
    (before.entries ++ (key, value) :: rest).Perm vars.entries →
      Genuine placeholder (prompt.pieces vars) (valueOf before) key
        (prompt.render before).toList

/-- The variables with their values in characters. -/
def inChars (entries : List (String × String)) : List (String × List Char) :=
  entries.map fun (key, value) => (key, value.toList)

/-- Whichever of the variables are filled in, the placeholder of another one stands only where the
template has it. -/
def NothingArises (prompt : PromptTemplate) (vars : OrderedDict String String) : Prop :=
  NoneArises placeholder (prompt.pieces vars) (inChars vars.entries)

/-! ## Rendering -/

variable {prompt : PromptTemplate} {vars : OrderedDict String String}

theorem placeholder_ne_nil (key : String) : placeholder key ≠ [] := bracketed_ne_nil key

theorem toList_strReplace (key value text : String) :
    (strReplace (braced key) value text).toList =
      replace (placeholder key) value.toList text.toList := by
  simp [strReplace, braced, placeholder, bracketed]

/-- Rendering replaces one placeholder after the other. -/
theorem toList_render (prompt : PromptTemplate) (vars : OrderedDict String String) :
    (prompt.render vars).toList =
      replaceAll placeholder (inChars vars.entries) prompt.template.toList := by
  rw [PromptTemplate.render]
  generalize prompt.template = text
  induction vars.entries generalizing text with
  | nil => rfl
  | cons e entries ih =>
    obtain ⟨key, value⟩ := e
    rw [List.foldl_cons, ih, toList_strReplace]
    rfl

theorem keys_inChars (entries : List (String × String)) :
    (inChars entries).map Prod.fst = entries.map Prod.fst := by
  simp [inChars]

theorem valuesOf_inChars (vars : OrderedDict String String) :
    valuesOf (inChars vars.entries) = valueOf vars := by
  funext key
  simp [valuesOf, inChars, valueOf, OrderedDict.get?, List.find?_map, Function.comp_def]

theorem nodup_inChars (vars : OrderedDict String String) :
    ((inChars vars.entries).map Prod.fst).Nodup := by
  rw [keys_inChars]
  exact vars.nodup

/-- Entries in characters are those of texts. -/
theorem exists_inChars (entries : List (String × List Char)) :
    ∃ texts, inChars texts = entries := by
  refine ⟨entries.map fun (key, value) => (key, String.ofList value), ?_⟩
  simp [inChars, Function.comp_def]

theorem inChars_perm_iff {entries entries' : List (String × String)} :
    (inChars entries).Perm (inChars entries') ↔ entries.Perm entries' := by
  refine List.map_perm_map_iff ?_
  rintro ⟨key, value⟩ ⟨key', value'⟩ heq
  simpa [String.toList_inj] using heq

/-- The template is written as its pieces are. -/
theorem spell_pieces (prompt : PromptTemplate) (vars : OrderedDict String String) :
    spell placeholder (prompt.pieces vars) = prompt.template.toList :=
  spell_parse placeholder_ne_nil _ _

/-- If no placeholder arises, the order does not matter. -/
theorem NothingArises.render_eq (h : NothingArises prompt vars) {order : OrderedDict String String}
    (hperm : order.entries.Perm vars.entries) : prompt.render order = prompt.filledIn vars := by
  rw [← String.toList_inj, toList_render, ← spell_pieces prompt vars,
    NoneArises.replaceAll_eq placeholder_ne_nil (nodup_inChars vars) h (inChars_perm_iff.mpr hperm),
    valuesOf_inChars, PromptTemplate.filledIn, String.toList_ofList]

/-- What a step finds is what it would find among the pieces. -/
theorem stepwise_pieces_iff : Stepwise placeholder (prompt.pieces vars) (inChars vars.entries) ↔
    ∀ (before : OrderedDict String String) key value rest,
      (before.entries ++ (key, value) :: rest).Perm vars.entries →
        Genuine placeholder (prompt.pieces vars) (valueOf before) key
          (prompt.render before).toList := by
  constructor
  · intro h before key value rest hperm
    rw [toList_render, ← spell_pieces prompt vars, ← valuesOf_inChars]
    refine h _ key value.toList (inChars rest) ?_
    simpa [inChars] using inChars_perm_iff.mpr hperm
  · intro h front key value back hperm
    obtain ⟨texts, rfl⟩ := exists_inChars front
    obtain ⟨rest, rfl⟩ := exists_inChars back
    have htexts : (texts ++ (key, String.ofList value) :: rest).Perm vars.entries := by
      rw [← inChars_perm_iff]
      simpa [inChars] using hperm
    have hnodup : (texts.map Prod.fst).Nodup := by
      rw [← keys_inChars]
      exact nodup_front (nodup_inChars vars) hperm
    have hstep := h ⟨texts, hnodup⟩ key _ rest htexts
    rwa [toList_render, ← spell_pieces prompt vars, ← valuesOf_inChars] at hstep

/-- **`render`** fills in the variables at once in every order, exactly if filling in some of them
makes no placeholder of another one. -/
theorem render_iff (prompt : PromptTemplate) (vars : OrderedDict String String) :
    RendersAtOnce prompt vars ↔ NothingArises prompt vars := by
  rw [NothingArises, ← stepwise_iff placeholder_ne_nil (nodup_inChars vars)]
  constructor
  · intro h
    exact stepwise_pieces_iff.mpr h.unexpanded
  · intro h
    have hnone := (stepwise_iff placeholder_ne_nil (nodup_inChars vars)).mp h
    exact ⟨fun order hperm => NothingArises.render_eq hnone hperm, stepwise_pieces_iff.mp h⟩

/-- A prompt that quotes a message. -/
def quoting : PromptTemplate := { template := "{message}" }

/-- The message is a placeholder, and the variable of that name is passed behind it. -/
def messageFirst : OrderedDict String String :=
  ⟨[("message", "{name}"), ("name", "Eve")], by decide⟩

/-- The same variables in the other order. -/
def nameFirst : OrderedDict String String := ⟨[("name", "Eve"), ("message", "{name}")], by decide⟩

/-- The text of a message is expanded in one order, and stays in the other. -/
theorem message_expanded : ¬ RendersAtOnce quoting messageFirst := by
  intro h
  have hfirst : quoting.render messageFirst = "Eve" := by decide
  have hsecond : quoting.render nameFirst = "{name}" := by decide
  have hsame := (h.filled messageFirst (List.Perm.refl _)).trans
    (h.filled nameFirst (List.Perm.swap _ _ [])).symm
  rw [hfirst, hsecond] at hsame
  exact absurd hsame (by decide)

/-! ## Names without braces -/

/-- The name of a variable has no braces. -/
def PlainName (key : String) : Prop := '{' ∉ key.toList ∧ '}' ∉ key.toList

theorem toList_injective : Function.Injective String.toList := fun _ _ => String.toList_inj.mp

/-- The values of all variables but one. -/
def othersOf (vars : OrderedDict String String) (key : String) : String → Option (List Char) :=
  fun key' => if key' = key then none else valueOf vars key'

theorem restrict_others (vars : OrderedDict String String) (key : String) :
    restrict (valueOf vars) (((inChars vars.entries).map Prod.fst).toFinset.erase key) =
      othersOf vars key := by
  funext key'
  rw [restrict, othersOf, ← valuesOf_inChars]
  by_cases hkey : key' = key
  · simp [hkey]
  · by_cases hmem : key' ∈ (inChars vars.entries).map Prod.fst
    · rw [if_pos (Finset.mem_erase.mpr ⟨hkey, List.mem_toFinset.mpr hmem⟩), if_neg hkey]
    · rw [valuesOf_eq_none hmem, ite_self, ite_self]

/-- For names without braces, it is enough to look for the placeholder of each variable where all
the others are filled in. -/
theorem renders_of_plain_iff (hplain : ∀ key ∈ vars.entries.map Prod.fst, PlainName key) :
    RendersAtOnce prompt vars ↔ ∀ key ∈ vars.entries.map Prod.fst,
      Genuine placeholder (prompt.pieces vars) (othersOf vars key) key
        (spell placeholder (fill (othersOf vars key) (prompt.pieces vars))) := by
  have hholes : ∀ key, .hole key ∈ prompt.pieces vars → PlainName key := fun key hmem =>
    hplain key (mem_keys_of_hole placeholder_ne_nil _ key hmem)
  rw [← keys_inChars] at hplain ⊢
  rw [render_iff, NothingArises]
  refine (noneArises_iff_of_plain (by decide) toList_injective hplain hholes).trans ?_
  simp only [valuesOf_inChars, restrict_others]
  rfl

/-- **A single variable** is filled in right, whatever its value. -/
theorem renders_one {key : String} (hplain : PlainName key) (prompt : PromptTemplate)
    (value : String) : RendersAtOnce prompt ⟨[(key, value)], List.nodup_singleton key⟩ := by
  rw [render_iff]
  exact noneArises_singleton (by decide) toList_injective hplain value.toList _

end BankingAgent
