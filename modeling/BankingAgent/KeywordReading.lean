import BankingAgent.Recording
import BankingAgent.Routing
import BankingAgent.Search.WordSearch
import Mathlib.Data.List.Infix

/-!
# `routing/classifier.py`: what the keywords match

A keyword is meant to match as a word or a phrase, whatever the case. The classifier looks for the
keywords as they are written in the stripped and lowered message, and for a phrase without looking
at what stands next to it. So a keyword with a capital letter is never found, `"pay "` is not found
at the end, and a phrase is found inside of longer words.

* `keywords_matched_iff` — a message is classified as meant, exactly if each rule that is overlooked
  or matched too easily comes after one that is matched as meant, or if the phases behind the
  keywords come to the intent of an overlooked rule.
-/

namespace BankingAgent

open WordSearch

/-! ## The meaning of the rules -/

/-- A keyword in lower case. All keywords are ASCII. -/
def foldKeyword (keyword : String) : List Char := keyword.toList.map Char.toLower

/-- A phrase is found anywhere, a single word as a word. -/
def IsPhrase (keyword : String) : Prop := contains " " keyword = true

instance (keyword : String) : Decidable (IsPhrase keyword) :=
  inferInstanceAs (Decidable (_ = _))

section Reading

variable (py : PyLib) (message : String)

/-- The text the keywords are looked for in. -/
def lowered : String := py.strip (py.lower message)

/-- The keyword occurs in the message, whatever the case, and no word goes on beyond its ends. -/
def Occurs (keyword : String) : Prop :=
  Delimited py.wordChar (foldKeyword keyword) (py.lower message).toList

/-- A keyword of the rule occurs in the message. -/
def Meant (rule : List String × Intent) : Prop := ∃ keyword ∈ rule.1, Occurs py message keyword

/-- A phrase of the rule is part of the text, inside of longer words or not. -/
def PhraseFound (rule : List String × Intent) : Prop :=
  ∃ keyword ∈ rule.1, IsPhrase keyword ∧ contains keyword (lowered py message) = true

/-- The rule is meant, but only by keywords with a capital letter, or by `"pay "` at the end, and no
phrase of it is part of the text either. -/
def Overlooked (rule : List String × Intent) : Prop :=
  Meant py message rule ∧ ¬ PhraseFound py message rule ∧
    ∀ keyword ∈ rule.1, Occurs py message keyword →
      foldKeyword keyword ≠ keyword.toList ∨ keyword = "pay "

/-- The rule is not meant, but a phrase of it is part of the text, inside of longer words. -/
def Overmatched (rule : List String × Intent) : Prop :=
  ¬ Meant py message rule ∧ PhraseFound py message rule

/-- The phases behind the keywords. -/
def laterPhases (router : Router) : Intent :=
  (matchPatterns py (lowered py message)).getD
    (match router.llm with
    | some llm => llmClassify py (llm message)
    | none => .generalUnsupported)

/-- The first rule that is meant gives the intent, and without one the keywords give none. -/
def KeywordsMatched (router : Router) : Prop :=
  (∀ front rule back, keywordRules = front ++ rule :: back → Meant py message rule →
    (∀ r ∈ front, ¬ Meant py message r) → classify py router message = rule.2) ∧
  ((∀ rule ∈ keywordRules, ¬ Meant py message rule) →
    matchKeywords py (lowered py message) = none)

/-- Each rule that is overlooked or matched too easily comes after one that is matched as meant. -/
def MisreadLate : Prop :=
  ∀ front rule back, keywordRules = front ++ rule :: back →
    Overlooked py message rule ∨ Overmatched py message rule →
      ∃ r ∈ front, Meant py message r ∧ ¬ Overlooked py message r

/-- The rules that are meant are all overlooked, nothing is matched too easily, and what comes
behind the keywords has the intent of the first rule that is meant. -/
def MadeUpFor (router : Router) : Prop :=
  (∀ rule ∈ keywordRules, ¬ Overmatched py message rule ∧
    (Meant py message rule → Overlooked py message rule)) ∧
  ∃ front rule back, keywordRules = front ++ rule :: back ∧ Meant py message rule ∧
    (∀ r ∈ front, ¬ Meant py message r) ∧ laterPhases py message router = rule.2

end Reading

/-- What the classifier relies on of Python: the letters are word characters, and `strip` takes
characters off both ends of which none is a word character or a dollar sign. -/
structure PyLib.ReadsWords (py : PyLib) : Prop where
  letter : ∀ c : Char, c.isLower = true → py.wordChar c = true
  strip : ∀ text, ∃ before after, text.toList = before ++ (py.strip text).toList ++ after ∧
    ∀ c ∈ before ++ after, py.wordChar c = false ∧ c ≠ '$'

section Rules

variable {py : PyLib} {message keyword text : String} {rule : List String × Intent}
  {router : Router}

theorem contains_iff : contains keyword text = true ↔ keyword.toList <:+: text.toList := by
  rw [contains, List.any_eq_true, List.infix_iff_prefix_suffix]
  simp [and_comm]

/-- A keyword that is no phrase is a run of small letters. -/
theorem word_letters : ∀ rule ∈ keywordRules, ∀ keyword ∈ rule.1, ¬ IsPhrase keyword →
    foldKeyword keyword = keyword.toList ∧ keyword.toList ≠ [] ∧
      keyword.toList.all Char.isLower = true := by
  decide +kernel

/-- The characters a phrase may begin and end with. -/
def IsEdge (c : Char) : Bool := c.isLower || c = '$'

/-- A phrase without capitals begins and ends with a small letter or a dollar sign, short of the
one with a blank at its end. -/
theorem phrase_ends : ∀ rule ∈ keywordRules, ∀ keyword ∈ rule.1,
    foldKeyword keyword = keyword.toList ∧ keyword ≠ "pay " →
      keyword.toList ≠ [] ∧ keyword.toList.head?.all IsEdge = true ∧
        keyword.toList.getLast?.all IsEdge = true := by
  decide +kernel

/-- An edge is not trimmed off. -/
theorem PyLib.ReadsWords.not_mem_of_edge {cs : List Char} {edge : Option Char} (h : py.ReadsWords)
    (hedge : edge.all IsEdge = true) (hcs : ∀ c ∈ cs, py.wordChar c = false ∧ c ≠ '$') :
    ∀ c ∈ edge, c ∉ cs := by
  rintro c rfl hmem
  obtain ⟨hword, hdollar⟩ := hcs c hmem
  rcases (Bool.or_eq_true _ _).mp hedge with hletter | hsign
  · rw [h.letter c hletter] at hword
    cases hword
  · exact hdollar (of_decide_eq_true hsign)

/-- No two rules have one intent. -/
theorem intents_distinct : (keywordRules.map Prod.snd).Nodup := by decide

/-! ## One rule -/

theorem PyLib.ReadsWords.strip_lowered (h : py.ReadsWords) (message : String) : ∃ before after,
    (py.lower message).toList = before ++ (lowered py message).toList ++ after ∧
      (∀ c ∈ before, py.wordChar c = false ∧ c ≠ '$') ∧
        ∀ c ∈ after, py.wordChar c = false ∧ c ≠ '$' := by
  obtain ⟨before, after, htext, hends⟩ := h.strip (py.lower message)
  exact ⟨before, after, htext, fun c hc => hends c (List.mem_append_left _ hc),
    fun c hc => hends c (List.mem_append_right _ hc)⟩

/-- A single word is found exactly if it occurs. -/
theorem isWordMatch_iff (hpy : py.ReadsWords) (hrule : rule ∈ keywordRules)
    (hkeyword : keyword ∈ rule.1) (hword : ¬ IsPhrase keyword) :
    (contains keyword (lowered py message) && isWordMatch py keyword (lowered py message)) = true ↔
      Occurs py message keyword := by
  obtain ⟨hfold, hne, hletters⟩ := word_letters rule hrule keyword hkeyword hword
  have hchars : ∀ c ∈ keyword.toList, py.wordChar c = true :=
    fun c hc => hpy.letter c (List.all_eq_true.mp hletters c hc)
  obtain ⟨before, after, htext, hbefore, hafter⟩ := hpy.strip_lowered message
  have hmatch : isWordMatch py keyword (lowered py message) = true ↔
      Delimited py.wordChar keyword.toList (lowered py message).toList := by
    rw [isWordMatch, if_neg (by exact hword), words, List.contains_iff_mem]
    exact mem_splitOnP_iff hne hchars
  have hoccurs : Occurs py message keyword ↔
      Delimited py.wordChar keyword.toList (lowered py message).toList := by
    rw [Occurs, hfold, htext, ← mem_splitOnP_iff hne hchars, ← mem_splitOnP_iff hne hchars]
    exact mem_splitOnP_trimmed hne (fun c hc => by simp [(hbefore c hc).1])
      fun c hc => by simp [(hafter c hc).1]
  rw [Bool.and_eq_true, hoccurs, hmatch]
  exact and_iff_right_of_imp fun hdelimited => contains_iff.mpr hdelimited.isInfix

/-- A phrase is found exactly if it is part of the text. -/
theorem phraseMatch_iff (hphrase : IsPhrase keyword) :
    (contains keyword (lowered py message) && isWordMatch py keyword (lowered py message)) = true ↔
      contains keyword (lowered py message) = true := by
  rw [isWordMatch, if_pos (by exact hphrase), Bool.and_self]

/-- A keyword without capitals that occurs is part of the text, short of the one with a blank at
its end. -/
theorem contains_of_occurs (hpy : py.ReadsWords) (hrule : rule ∈ keywordRules)
    (hkeyword : keyword ∈ rule.1) (hfold : foldKeyword keyword = keyword.toList)
    (hpay : keyword ≠ "pay ") (h : Occurs py message keyword) :
    contains keyword (lowered py message) = true := by
  obtain ⟨hne, hhead, hlast⟩ := phrase_ends rule hrule keyword hkeyword ⟨hfold, hpay⟩
  obtain ⟨before, after, htext, hbefore, hafter⟩ := hpy.strip_lowered message
  have hinfix : keyword.toList <:+: before ++ (lowered py message).toList ++ after := by
    rw [← htext, ← hfold]
    exact h.isInfix
  exact contains_iff.mpr (infix_of_trimmed hne (hpy.not_mem_of_edge hhead hbefore)
    (hpy.not_mem_of_edge hlast hafter) hinfix)

/-- The classifier finds a keyword of the rule. -/
def Seen (py : PyLib) (message : String) (rule : List String × Intent) : Bool :=
  rule.1.any fun keyword =>
    contains keyword (lowered py message) && isWordMatch py keyword (lowered py message)

/-- A rule is found by a phrase that is part of the text, or by a word that occurs. -/
theorem seen_iff (hpy : py.ReadsWords) (hrule : rule ∈ keywordRules) : Seen py message rule = true ↔
    PhraseFound py message rule ∨
      ∃ keyword ∈ rule.1, ¬ IsPhrase keyword ∧ Occurs py message keyword := by
  rw [Seen, List.any_eq_true, PhraseFound, ← exists_or]
  refine exists_congr fun keyword => ?_
  rw [← and_or_left]
  refine and_congr_right fun hkeyword => ?_
  by_cases hphrase : IsPhrase keyword
  · rw [phraseMatch_iff hphrase]
    simp [hphrase]
  · rw [isWordMatch_iff hpy hrule hkeyword hphrase]
    simp [hphrase]

/-- **Overlooked** rules are those that are meant and not found. -/
theorem overlooked_iff (hpy : py.ReadsWords) (hrule : rule ∈ keywordRules) :
    Overlooked py message rule ↔ Meant py message rule ∧ Seen py message rule = false := by
  rw [Overlooked, ← Bool.not_eq_true, seen_iff hpy hrule, not_or]
  refine and_congr_right fun _ => and_congr_right fun hnone => ⟨?_, ?_⟩
  · rintro hkeywords ⟨keyword, hkeyword, hword, hoccurs⟩
    rcases hkeywords keyword hkeyword hoccurs with hcapital | rfl
    · exact hcapital (word_letters rule hrule keyword hkeyword hword).1
    · exact hword (by decide)
  · intro hwords keyword hkeyword hoccurs
    by_contra hplain
    obtain ⟨hfold, hpay⟩ := not_or.mp hplain
    by_cases hphrase : IsPhrase keyword
    · -- a phrase without capitals would have been found
      exact hnone ⟨keyword, hkeyword, hphrase,
        contains_of_occurs hpy hrule hkeyword (not_not.mp hfold) hpay hoccurs⟩
    · exact hwords ⟨keyword, hkeyword, hphrase, hoccurs⟩

/-- **Overmatched** rules are those that are found and not meant. -/
theorem overmatched_iff (hpy : py.ReadsWords) (hrule : rule ∈ keywordRules) :
    Overmatched py message rule ↔ ¬ Meant py message rule ∧ Seen py message rule = true := by
  rw [Overmatched, seen_iff hpy hrule]
  refine and_congr_right fun hmeant => (or_iff_left ?_).symm
  rintro ⟨keyword, hkeyword, -, hoccurs⟩
  exact hmeant ⟨keyword, hkeyword, hoccurs⟩

/-! ## All rules -/

theorem classify_eq : classify py router message =
    ((keywordRules.find? (Seen py message)).map Prod.snd).getD
      (laterPhases py message router) := by
  have hkeywords : matchKeywords py (py.strip (py.lower message)) =
      (keywordRules.find? (Seen py message)).map Prod.snd := rfl
  rw [classify, hkeywords]
  cases (keywordRules.find? (Seen py message)).map Prod.snd <;> rfl

open scoped Classical in
/-- The first rule that is meant. -/
noncomputable def firstMeant (py : PyLib) (message : String) : Option (List String × Intent) :=
  keywordRules.find? fun rule => decide (Meant py message rule)

open scoped Classical in
theorem firstMeant_eq_some_iff : firstMeant py message = some rule ↔
    ∃ front back, keywordRules = front ++ rule :: back ∧ Meant py message rule ∧
      ∀ r ∈ front, ¬ Meant py message r := by
  rw [firstMeant, List.find?_eq_some_iff_append]
  constructor
  · rintro ⟨hmeant, front, back, hsplit, hfront⟩
    exact ⟨front, back, hsplit, of_decide_eq_true hmeant, fun r hr => by simpa using hfront r hr⟩
  · rintro ⟨front, back, hsplit, hmeant, hfront⟩
    exact ⟨decide_eq_true hmeant, front, back, hsplit, fun r hr => by simpa using hfront r hr⟩

open scoped Classical in
theorem firstMeant_eq_none_iff : firstMeant py message = none ↔
    ∀ rule ∈ keywordRules, ¬ Meant py message rule := by
  rw [firstMeant, List.find?_eq_none]
  simp

theorem keywordsMatched_iff : KeywordsMatched py message router ↔
    (∀ rule, firstMeant py message = some rule →
      ((keywordRules.find? (Seen py message)).map Prod.snd).getD
        (laterPhases py message router) = rule.2) ∧
    (firstMeant py message = none → keywordRules.find? (Seen py message) = none) := by
  rw [KeywordsMatched, classify_eq, ← firstMeant_eq_none_iff]
  refine and_congr ?_ (imp_congr_right fun _ => Option.map_eq_none_iff)
  constructor
  · intro h rule hfirst
    obtain ⟨front, back, hsplit, hmeant, hfront⟩ := firstMeant_eq_some_iff.mp hfirst
    exact h front rule back hsplit hmeant hfront
  · intro h front rule back hsplit hmeant hfront
    exact h rule (firstMeant_eq_some_iff.mpr ⟨front, back, hsplit, hmeant, hfront⟩)

open scoped Classical in
/-- Both readings choose the same rule. -/
theorem misreadLate_iff (hpy : py.ReadsWords) : MisreadLate py message ↔
    firstMeant py message = keywordRules.find? (Seen py message) := by
  rw [firstMeant, find?_eq_find?_iff, MisreadLate]
  refine forall_congr' fun front => forall_congr' fun rule => forall_congr' fun back =>
    forall_congr' fun hsplit => ?_
  have hrule : rule ∈ keywordRules := by simp [hsplit]
  have hdiffer : (decide (Meant py message rule) ≠ Seen py message rule) ↔
      Overlooked py message rule ∨ Overmatched py message rule := by
    rw [overlooked_iff hpy hrule, overmatched_iff hpy hrule]
    by_cases hmeant : Meant py message rule <;> simp [hmeant]
  rw [hdiffer]
  refine imp_congr_right fun _ => exists_congr fun r => and_congr_right fun hr => ?_
  have hr' : r ∈ keywordRules := by simp [hsplit, hr]
  rw [overlooked_iff hpy hr']
  by_cases hmeant : Meant py message r <;> simp [hmeant]

/-- The classifier finds nothing, and the phases behind the keywords make up for it. -/
theorem madeUpFor_iff (hpy : py.ReadsWords) : MadeUpFor py message router ↔
    keywordRules.find? (Seen py message) = none ∧
      ∃ rule, firstMeant py message = some rule ∧ laterPhases py message router = rule.2 := by
  have hnone : (∀ rule ∈ keywordRules, ¬ Overmatched py message rule ∧
      (Meant py message rule → Overlooked py message rule)) ↔
        keywordRules.find? (Seen py message) = none := by
    rw [List.find?_eq_none]
    refine forall₂_congr fun rule hrule => ?_
    rw [overlooked_iff hpy hrule, overmatched_iff hpy hrule]
    by_cases hmeant : Meant py message rule <;> simp [hmeant]
  rw [MadeUpFor, hnone]
  refine and_congr_right fun _ => ?_
  constructor
  · rintro ⟨front, rule, back, hsplit, hmeant, hfront, hlater⟩
    exact ⟨rule, firstMeant_eq_some_iff.mpr ⟨front, back, hsplit, hmeant, hfront⟩, hlater⟩
  · rintro ⟨rule, hfirst, hlater⟩
    obtain ⟨front, back, hsplit, hmeant, hfront⟩ := firstMeant_eq_some_iff.mp hfirst
    exact ⟨front, rule, back, hsplit, hmeant, hfront, hlater⟩

/-- A rule is known by its intent. -/
theorem rule_eq_of_intent {rule' : List String × Intent} (hrule : rule ∈ keywordRules)
    (hrule' : rule' ∈ keywordRules) (h : rule.2 = rule'.2) : rule = rule' :=
  List.inj_on_of_nodup_map intents_distinct hrule hrule' h

end Rules

/-- **Keywords** give the intent of the first rule with a keyword that occurs as a word or a phrase,
and none without one, exactly if each rule that is overlooked or matched too easily comes after one
that is matched as meant, or if the phases behind the keywords make up for it. -/
theorem keywords_matched_iff (py : PyLib) (router : Router) (message : String)
    (hpy : py.ReadsWords) : KeywordsMatched py message router ↔
      MisreadLate py message ∨ MadeUpFor py message router := by
  rw [keywordsMatched_iff, misreadLate_iff hpy, madeUpFor_iff hpy]
  cases hfirst : firstMeant py message with
  | none => cases keywordRules.find? (Seen py message) <;> simp
  | some rule =>
    cases hseen : keywordRules.find? (Seen py message) with
    | none => simp
    | some rule' =>
      obtain ⟨front, back, hsplit, -, -⟩ := firstMeant_eq_some_iff.mp hfirst
      have hrule : rule ∈ keywordRules := by simp [hsplit]
      have hrule' : rule' ∈ keywordRules := List.mem_of_find?_eq_some hseen
      have hsame : rule'.2 = rule.2 ↔ rule = rule' :=
        ⟨fun h => rule_eq_of_intent hrule hrule' h.symm, fun h => by rw [h]⟩
      simp [hsame]

theorem demoPy_readsWords : demoPy.ReadsWords where
  letter c hc := by
    have halpha : c.isAlpha = true := Bool.or_eq_true_iff.mpr (.inr hc)
    simp [demoPy, Char.isAlphanum, halpha]
  strip text := ⟨[], [], by simp [demoPy], by simp⟩

/-- Without one of its keywords in the message, a rule is not meant. -/
theorem not_meant_of_absent {py : PyLib} {message : String} {rule : List String × Intent}
    (h : ∀ keyword ∈ rule.1, ¬ foldKeyword keyword <:+: (py.lower message).toList) :
    ¬ Meant py message rule :=
  fun ⟨keyword, hkeyword, hoccurs⟩ => h keyword hkeyword hoccurs.isInfix

/-- A word that is found settles the message. -/
theorem cancel_matched : KeywordsMatched demoPy "please cancel it" ⟨none⟩ := by
  refine (keywords_matched_iff demoPy ⟨none⟩ "please cancel it" demoPy_readsWords).mpr (.inl ?_)
  rw [misreadLate_iff demoPy_readsWords]
  have hfirst : firstMeant demoPy "please cancel it" =
      some (["cancel", "void", "stop transfer"], .transferCancel) := by
    refine firstMeant_eq_some_iff.mpr ⟨keywordRules.take 1, keywordRules.drop 2, rfl, ?_, ?_⟩
    · have hrule : (["cancel", "void", "stop transfer"], Intent.transferCancel) ∈ keywordRules := by
        decide
      have hword : ¬ IsPhrase "cancel" := by decide
      exact ⟨"cancel", by simp,
        (isWordMatch_iff demoPy_readsWords hrule (by simp) hword).mp (by decide)⟩
    · exact fun r hr => not_meant_of_absent (by revert r; decide)
  rw [hfirst]
  decide

/-- The question is found by no rule: the message is in lower case, and the keyword is not. -/
theorem spending_not_matched : ¬ KeywordsMatched demoPy "what did i spend" ⟨none⟩ := by
  rintro ⟨hfirst, -⟩
  have hclassified : classify demoPy ⟨none⟩ "what did i spend" = .policyQuestion := by decide
  have hmeant := hfirst (keywordRules.take 6) _ (keywordRules.drop 7) rfl
    ⟨"what did I spend", by decide, [], [], by decide, by simp [Apart], by simp [Apart]⟩
    fun r hr => not_meant_of_absent (by revert r; decide)
  rw [hclassified] at hmeant
  cases hmeant

end BankingAgent
