import BankingAgent.Mcp
import BankingAgent.Ranking
import Mathlib.Algebra.Order.Ring.Rat
import Mathlib.Data.Finset.Card

/-!
# `rag/`: retrieval

The retriever looks through its chunks for those of the domain and of the tenant that are in
effect, and returns the first few by the words they share with the query. Of what a chunk says
about its access only the tenant and the end of its window are looked at: not the roles, which
are an argument all the same, and not the day the window begins.

* `retrieval_accessible_iff` — what is returned may be read exactly if every chunk of the first
  few is meant for one of the roles and has begun, or the comparison with a naive time raises.
* `excerpt_accessible` — what comes into a prompt is then an excerpt of a chunk that may be read.
* `retrieve_returns_iff` — it returns at all exactly if no chunk in scope ends with a naive time.
-/

namespace BankingAgent

/-! ## The model -/

/-- `KnowledgeDomain`. -/
inductive KnowledgeDomain : Type where
  | productsFees
  | transferRules
  | kycAml
  | operationsSop
  | formGuidance
  | exceptions
  deriving DecidableEq, Repr

/-- `DocumentChunk`, as far as it is read. What is unset is `""`. -/
structure DocumentChunk : Type where
  chunkId : String
  documentId : String
  version : String
  title : String
  content : String
  sourceUri : String
  effectiveFrom : String
  effectiveTo : String
  accessRoles : List String
  tenantId : String
  sectionPath : String
  domain : KnowledgeDomain
  deriving DecidableEq

/-- What `datetime.fromisoformat` makes of a text. -/
inductive ParsedDatetime : Type where
  /-- it raises `ValueError` -/
  | invalid
  /-- a time without a zone, which does not compare with one that has one -/
  | naive
  | aware (t : Instant)

/-- The library functions of the retriever. -/
structure RetrieverLib : Type where
  lower : String → String
  /-- `str.split()` -/
  split : String → List String
  fromisoformat : String → ParsedDatetime

/-- `Citation`. -/
structure Citation : Type where
  documentId : String
  title : String
  version : String
  sectionPath : String
  sourceUri : String
  chunkId : String
  deriving DecidableEq

/-- `RetrievalResult`, without the latency. -/
structure RetrievalResult : Type where
  query : String
  chunks : List DocumentChunk
  totalHits : ℕ

/-- The arguments of `retrieve`, and what the clock shows. -/
structure RetrieveArgs : Type where
  query : String
  topK : ℤ
  domain : Option KnowledgeDomain
  tenantId : String
  roles : Option (List String)
  now : Instant

/-- `l[:k]`. -/
def sliceTo {α : Type} (l : List α) (k : ℤ) : List α :=
  if 0 ≤ k then l.take k.toNat else l.take (l.length - (-k).toNat)

section Model

variable (lib : RetrieverLib)

/-- `is_effective`. -/
def DocumentChunk.isEffective (now : Instant) (c : DocumentChunk) : Except Exn Bool :=
  if c.effectiveTo ≠ "" then
    match lib.fromisoformat c.effectiveTo with
    | .invalid => .ok true
    | .naive => .error .typeError
    | .aware expiry => .ok (now < expiry)
  else .ok true

/-- The chunk is of the domain and of the tenant. -/
def RetrieveArgs.inScope (args : RetrieveArgs) (c : DocumentChunk) : Bool :=
  (args.domain = none || args.domain = some c.domain) && c.tenantId = args.tenantId

/-- `candidates`: the comprehension asks for the domain and the tenant first. -/
def candidates (args : RetrieveArgs) : List DocumentChunk → Except Exn (List DocumentChunk)
  | [] => .ok []
  | c :: chunks =>
    if args.inScope c then do
      let effective ← c.isEffective lib args.now
      let rest ← candidates args chunks
      return if effective then c :: rest else rest
    else candidates args chunks

/-- `set(text.lower().split())`. -/
def terms (text : String) : Finset String := (lib.split (lib.lower text)).toFinset

/-- The score of a chunk: the part of the query's words it contains. -/
def score (query : String) (chunk : DocumentChunk) : ℚ :=
  if terms lib query = ∅ ∨ terms lib chunk.content = ∅ then 0
  else ((terms lib query ∩ terms lib chunk.content).card : ℚ) / (terms lib query).card

/-- The chunk is not behind the other one. -/
def Outranks (query : String) (chunk other : DocumentChunk) : Prop :=
  score lib query other ≤ score lib query chunk

instance (query : String) : DecidableRel (Outranks lib query) :=
  fun chunk other => inferInstanceAs (Decidable (score lib query other ≤ score lib query chunk))

/-- `retrieve`. The sort is stable, and the roles are not looked at. -/
def retrieve (chunks : List DocumentChunk) (args : RetrieveArgs) : Except Exn RetrievalResult := do
  let scored ← candidates lib args chunks
  return ⟨args.query, sliceTo (scored.insertionSort (Outranks lib args.query)) args.topK,
    scored.length⟩

end Model

/-- The citation of a chunk. -/
def DocumentChunk.cite (c : DocumentChunk) : Citation :=
  ⟨c.documentId, c.title, c.version, c.sectionPath, c.sourceUri, c.chunkId⟩

/-- `RetrievalResult.citations`. -/
def RetrievalResult.citations (result : RetrievalResult) : List Citation :=
  result.chunks.map DocumentChunk.cite

/-- `to_text`. -/
def Citation.toText (c : Citation) : String :=
  let src := if c.sourceUri = "" then "" else s!" (source: {c.sourceUri})"
  let sectionText := if c.sectionPath = "" then "" else s!", section {c.sectionPath}"
  s!"[{c.title} v{c.version}{sectionText}{src}]"

/-- The excerpts `_execute_rag` puts in the prompt. -/
def RetrievalResult.excerpts (result : RetrievalResult) : List String :=
  (result.citations.zip result.chunks).map fun cited =>
    cited.1.toText ++ "\n" ++ String.ofList (cited.2.content.toList.take 500)

/-- How `_execute_rag` asks the retriever. -/
def ragArgs (userMessage : String) (now : Instant) : RetrieveArgs :=
  ⟨userMessage, 3, none, "default", none, now⟩

/-! ## What may be read -/

section Access

variable (lib : RetrieverLib)

/-- The chunk is meant for nobody in particular, or for one of the roles. -/
def DocumentChunk.MeantFor (c : DocumentChunk) (roles : Option (List String)) : Prop :=
  c.accessRoles = [] ∨ ∃ role ∈ c.accessRoles, role ∈ roles.getD []

/-- The window of the chunk does not begin in the future. -/
def DocumentChunk.Begun (c : DocumentChunk) (now : Instant) : Prop :=
  c.effectiveFrom ≠ "" → ∀ t, lib.fromisoformat c.effectiveFrom = .aware t → t ≤ now

/-- The window of the chunk has not ended. -/
def DocumentChunk.NotPassed (c : DocumentChunk) (now : Instant) : Prop :=
  c.effectiveTo ≠ "" → ∀ t, lib.fromisoformat c.effectiveTo = .aware t → now < t

/-- The chunk may be read by who asks. -/
structure Accessible (args : RetrieveArgs) (c : DocumentChunk) : Prop where
  tenant : c.tenantId = args.tenantId
  meant : c.MeantFor args.roles
  begun : c.Begun lib args.now
  notPassed : c.NotPassed lib args.now

/-- Everything that is returned may be read. -/
def RetrievalAccessible (chunks : List DocumentChunk) (args : RetrieveArgs) : Prop :=
  ∀ result, retrieve lib chunks args = .ok result → ∀ c ∈ result.chunks, Accessible lib args c

/-- The end of the window is a time without a zone. -/
def DocumentChunk.endsNaive (c : DocumentChunk) : Bool :=
  match lib.fromisoformat c.effectiveTo with
  | .naive => c.effectiveTo ≠ ""
  | _ => false

/-- The end of the window is not a time that has come. -/
def DocumentChunk.unexpired (now : Instant) (c : DocumentChunk) : Bool :=
  match lib.fromisoformat c.effectiveTo with
  | .aware expiry => c.effectiveTo = "" || now < expiry
  | _ => true

/-- The filter lets the chunk through. -/
def RetrieveArgs.passes (args : RetrieveArgs) (c : DocumentChunk) : Bool :=
  args.inScope c && c.unexpired lib args.now

/-- How many of `n` a slice up to `k` keeps. -/
def sliceLimit (k : ℤ) (n : ℕ) : ℕ := if 0 ≤ k then k.toNat else n - (-k).toNat

/-- A chunk in scope ends with a naive time; or of those that pass the filter, the first few
are meant for one of the roles and have begun. -/
def FirstFewAccessible (chunks : List DocumentChunk) (args : RetrieveArgs) : Prop :=
  (∃ c ∈ chunks, args.inScope c = true ∧ c.endsNaive lib = true) ∨
    ∀ before c after, chunks.filter (args.passes lib) = before ++ c :: after →
      Ranking.rank (Outranks lib args.query) before c after <
        sliceLimit args.topK (chunks.filter (args.passes lib)).length →
      c.MeantFor args.roles ∧ c.Begun lib args.now

end Access

section Retrieve

variable {lib : RetrieverLib} {chunks : List DocumentChunk} {args : RetrieveArgs}
  {c : DocumentChunk} {result : RetrievalResult}

instance (query : String) : Std.Total (Outranks lib query) := ⟨fun _ _ => le_total _ _⟩

instance (query : String) : IsTrans DocumentChunk (Outranks lib query) :=
  ⟨fun _ _ _ hab hbc => le_trans hbc hab⟩

/-- `is_effective` compares with the end of the window, or raises. -/
theorem isEffective_eq (now : Instant) (c : DocumentChunk) : c.isEffective lib now =
    if c.endsNaive lib then .error .typeError else .ok (c.unexpired lib now) := by
  unfold DocumentChunk.isEffective DocumentChunk.endsNaive DocumentChunk.unexpired
  by_cases hset : c.effectiveTo = ""
  · cases lib.fromisoformat c.effectiveTo <;> simp [hset]
  · cases lib.fromisoformat c.effectiveTo <;> simp [hset]

/-- The comprehension is a filter, unless a comparison raises. -/
theorem candidates_eq : candidates lib args chunks =
    if chunks.any (fun c => args.inScope c && c.endsNaive lib) then .error .typeError
    else .ok (chunks.filter (args.passes lib)) := by
  induction chunks with
  | nil => rfl
  | cons c chunks ih =>
    rw [candidates, ih, isEffective_eq]
    cases hscope : args.inScope c with
    | false => simp [hscope, RetrieveArgs.passes]
    | true =>
      cases hnaive : c.endsNaive lib with
      | true => simp [hscope, hnaive]; rfl
      | false =>
        have hfilter : (c :: chunks).filter (args.passes lib) =
            if c.unexpired lib args.now then c :: chunks.filter (args.passes lib)
            else chunks.filter (args.passes lib) := by
          simp [List.filter_cons, RetrieveArgs.passes, hscope]
        rw [hfilter, List.any_cons, hscope, hnaive, Bool.and_false, Bool.false_or]
        cases chunks.any fun c => args.inScope c && c.endsNaive lib <;> rfl

theorem sliceTo_eq {α : Type} (l : List α) (k : ℤ) :
    sliceTo l k = l.take (sliceLimit k l.length) := by
  unfold sliceTo sliceLimit
  split <;> rfl

/-- **What is returned**: the first few of those that pass the filter, by their rank. -/
theorem mem_retrieve_iff : (∃ result, retrieve lib chunks args = .ok result ∧ c ∈ result.chunks) ↔
    (¬ ∃ c ∈ chunks, args.inScope c = true ∧ c.endsNaive lib = true) ∧
      ∃ before after, chunks.filter (args.passes lib) = before ++ c :: after ∧
        Ranking.rank (Outranks lib args.query) before c after <
          sliceLimit args.topK (chunks.filter (args.passes lib)).length := by
  have hany : chunks.any (fun c => args.inScope c && c.endsNaive lib) = true ↔
      ∃ c ∈ chunks, args.inScope c = true ∧ c.endsNaive lib = true := by simp
  rw [retrieve]
  rw [candidates_eq, ← hany, ← Ranking.mem_take_insertionSort_iff]
  cases chunks.any (fun c => args.inScope c && c.endsNaive lib) with
  | true => exact iff_of_false (by rintro ⟨result, ⟨⟩, -⟩) (by simp)
  | false =>
    have hslice : sliceTo ((chunks.filter (args.passes lib)).insertionSort
        (Outranks lib args.query)) args.topK = _ := sliceTo_eq _ _
    rw [List.length_insertionSort] at hslice
    constructor
    · rintro ⟨result, hresult, hmem⟩
      obtain rfl := Except.ok.inj hresult
      exact ⟨Bool.false_ne_true, hslice ▸ hmem⟩
    · rintro ⟨-, hmem⟩
      exact ⟨_, rfl, hslice.symm ▸ hmem⟩

/-- The filter asks for the tenant and for the end of the window. -/
theorem tenant_and_end_of_passes (h : args.passes lib c = true) :
    c.tenantId = args.tenantId ∧ c.NotPassed lib args.now := by
  obtain ⟨hscope, hend⟩ := (Bool.and_eq_true _ _).mp h
  refine ⟨of_decide_eq_true ((Bool.and_eq_true _ _).mp hscope).2, fun hset t ht => ?_⟩
  rw [DocumentChunk.unexpired, ht] at hend
  simpa [hset] using hend

theorem FirstFewAccessible.retrievalAccessible (h : FirstFewAccessible lib chunks args) :
    RetrievalAccessible lib chunks args := by
  intro result hresult c hc
  obtain ⟨hnaive, before, after, hsplit, hrank⟩ := mem_retrieve_iff.mp ⟨result, hresult, hc⟩
  obtain ⟨hmeant, hbegun⟩ := h.resolve_left hnaive before c after hsplit hrank
  have hpasses : args.passes lib c = true :=
    (List.mem_filter.mp (hsplit ▸ by simp : c ∈ chunks.filter (args.passes lib))).2
  obtain ⟨htenant, hend⟩ := tenant_and_end_of_passes hpasses
  exact ⟨htenant, hmeant, hbegun, hend⟩

theorem RetrievalAccessible.firstFew (h : RetrievalAccessible lib chunks args) :
    FirstFewAccessible lib chunks args := by
  refine or_iff_not_imp_left.mpr fun hnaive before c after hsplit hrank => ?_
  obtain ⟨result, hresult, hc⟩ := mem_retrieve_iff.mpr ⟨hnaive, before, after, hsplit, hrank⟩
  have haccessible := h result hresult c hc
  exact ⟨haccessible.meant, haccessible.begun⟩

/-- A corpus that keeps nothing from anybody who asks is safe, whatever the query. -/
theorem retrievalAccessible_of_corpus (h : ∀ c ∈ chunks, args.passes lib c = true →
    c.MeantFor args.roles ∧ c.Begun lib args.now) : RetrievalAccessible lib chunks args := by
  refine FirstFewAccessible.retrievalAccessible (.inr fun before c after hsplit _ => ?_)
  obtain ⟨hmem, hpasses⟩ :=
    List.mem_filter.mp (hsplit ▸ by simp : c ∈ chunks.filter (args.passes lib))
  exact h c hmem hpasses

/-- A citation stands next to its own chunk. -/
theorem zip_cite (chunks : List DocumentChunk) :
    (chunks.map DocumentChunk.cite).zip chunks = chunks.map fun c => (c.cite, c) := by
  induction chunks with
  | nil => rfl
  | cons c chunks ih => rw [List.map_cons, List.zip_cons_cons, ih, List.map_cons]

/-- **An excerpt** in the prompt is one of a chunk that may be read, with its citation. -/
theorem excerpt_accessible {userMessage text : String} {now : Instant}
    (h : FirstFewAccessible lib chunks (ragArgs userMessage now))
    (hresult : retrieve lib chunks (ragArgs userMessage now) = .ok result)
    (htext : text ∈ result.excerpts) :
    ∃ c ∈ result.chunks, Accessible lib (ragArgs userMessage now) c ∧
      c.cite ∈ result.citations ∧
        text = c.cite.toText ++ "\n" ++ String.ofList (c.content.toList.take 500) := by
  rw [RetrievalResult.excerpts, RetrievalResult.citations, zip_cite, List.map_map] at htext
  obtain ⟨c, hc, rfl⟩ := List.mem_map.mp htext
  exact ⟨c, hc, h.retrievalAccessible result hresult c hc, List.mem_map_of_mem hc, rfl⟩

end Retrieve

/-- Words are separated by blanks, and no text is a time. -/
def demoRetrieverLib : RetrieverLib := ⟨id, fun text => text.splitOn " ", fun _ => .invalid⟩

/-- What is written for the officers. -/
def officerChunk : DocumentChunk :=
  ⟨"c1", "sop-1", "1.0", "Escalation", "limits", "", "", "", ["banking_officer"], "default", "",
    .operationsSop⟩

/-- **Retrieval returns**, whatever the texts and the query, exactly if no chunk of the domain and
of the tenant ends with a time without a zone. -/
theorem retrieve_returns_iff (lib : RetrieverLib) (chunks : List DocumentChunk)
    (args : RetrieveArgs) : (∃ result, retrieve lib chunks args = .ok result) ↔
      ∀ c ∈ chunks, args.inScope c = true →
        c.effectiveTo ≠ "" → lib.fromisoformat c.effectiveTo ≠ .naive := by
  have hnaive : ∀ c : DocumentChunk, c.endsNaive lib = true ↔
      c.effectiveTo ≠ "" ∧ lib.fromisoformat c.effectiveTo = .naive := by
    intro c
    rw [DocumentChunk.endsNaive]
    cases lib.fromisoformat c.effectiveTo <;> simp
  have hany : chunks.any (fun c => args.inScope c && c.endsNaive lib) = true ↔
      ∃ c ∈ chunks, args.inScope c = true ∧ c.effectiveTo ≠ "" ∧
        lib.fromisoformat c.effectiveTo = .naive := by simp [hnaive]
  rw [retrieve, candidates_eq]
  by_cases hbad : chunks.any (fun c => args.inScope c && c.endsNaive lib) = true
  · obtain ⟨c, hmem, hscope, hset, hparsed⟩ := hany.mp hbad
    rw [if_pos hbad]
    refine iff_of_false ?_ fun h => h c hmem hscope hset hparsed
    rintro ⟨result, ⟨⟩⟩
  · rw [if_neg hbad]
    refine iff_of_true ⟨_, rfl⟩ fun c hmem hscope hset hparsed => ?_
    exact hbad (hany.mpr ⟨c, hmem, hscope, hset, hparsed⟩)

/-- A day is a time without a zone. -/
def dayRetrieverLib : RetrieverLib where
  lower := id
  split text := text.splitOn " "
  fromisoformat text := if text = "2026-12-31" then .naive else .invalid

/-- The chunk, if its window ends with a day. -/
def yearEndChunk : DocumentChunk := { officerChunk with effectiveTo := "2026-12-31" }

/-- Nobody finds anything any more in a corpus with the chunk. -/
theorem year_end_chunk_raises :
    ¬ ∃ result, retrieve dayRetrieverLib [officerChunk, yearEndChunk] (ragArgs "hello" 0) =
      .ok result := by
  have hraised : retrieve dayRetrieverLib [officerChunk, yearEndChunk] (ragArgs "hello" 0) =
      .error .typeError := rfl
  rw [hraised]
  rintro ⟨result, ⟨⟩⟩

end BankingAgent
