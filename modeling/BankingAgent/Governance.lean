import BankingAgent.Numbers.VersionNumber
import BankingAgent.OrderedDict
import BankingAgent.Ranking
import BankingAgent.Recording
import Mathlib.Data.List.Induction
import Mathlib.Data.Set.Finite.Lemmas

/-!
# `governance/models.py`: versions of assets

The registry keeps what was registered last under a type, an id and a version. Asked for an asset
without a version it sorts the versions as texts and takes the last one. Among versions of the form
`major.minor.patch` that is not always the latest: `1.9.0` comes behind `1.10.0`.

* `get?_of` — what is found under a key is what was registered last.
* `get_latest_iff` — without a version the registry gives the one whose text is the last.
* `latest_version_iff` — that is the latest version, and the one a release records, exactly if no
  other one has later parts.
-/

namespace BankingAgent

/-! ## The model -/

/-- `AssetType`. -/
inductive AssetType : Type where
  | model
  | prompt
  | tool
  | policy
  | knowledgeIndex
  | workflow
  | evaluationDataset
  deriving DecidableEq, Repr

/-- `AssetVersion`. -/
structure AssetVersion : Type where
  assetType : AssetType
  assetId : String
  version : String := "1.0.0"
  hash : String := ""
  owner : String := ""
  approvedBy : String := ""
  approvedAt : String := ""
  changeDescription : String := ""
  metadata : List (String × Json) := []

/-- `AgentReleaseManifest`. -/
structure AgentReleaseManifest : Type where
  releaseId : String
  model : Option AssetVersion := none
  prompt : Option AssetVersion := none
  toolRegistryVersion : String := ""
  policyVersion : String := ""
  knowledgeIndexVersion : String := ""
  workflowVersion : String := ""
  evaluationDatasetVersion : String := ""
  releasedAt : String
  approvedBy : String := ""
  rollbackTarget : Option String := none

/-- What an asset is registered under. -/
abbrev AssetKey : Type := AssetType × String × String

/-- `key` of an asset. -/
def AssetVersion.key (asset : AssetVersion) : AssetKey :=
  (asset.assetType, asset.assetId, asset.version)

/-- `GovernanceRegistry`. -/
structure GovernanceRegistry : Type where
  assets : OrderedDict AssetKey AssetVersion

namespace GovernanceRegistry

variable (registry : GovernanceRegistry)

/-- `register`. -/
def register (asset : AssetVersion) : GovernanceRegistry :=
  ⟨registry.assets.set asset.key asset⟩

/-- The sort key of `get`, from the greatest text down. -/
def NotBehind (c c' : AssetKey × AssetVersion) : Prop := c'.1.2.2 ≤ c.1.2.2

instance : DecidableRel NotBehind :=
  fun c c' => inferInstanceAs (Decidable (c'.1.2.2 ≤ c.1.2.2))

/-- The entries of a type and an id. -/
def candidates (assetType : AssetType) (assetId : String) : List (AssetKey × AssetVersion) :=
  registry.assets.entries.filter fun c => c.1.1 = assetType && c.1.2.1 = assetId

/-- `get`; a version that is empty counts as none. -/
def get (assetType : AssetType) (assetId : String) (version : Option String) :
    Option AssetVersion :=
  if version.getD "" ≠ "" then registry.assets.get? (assetType, assetId, version.getD "")
  else (((registry.candidates assetType assetId).insertionSort NotBehind).head?).map Prod.snd

/-- `count`. -/
def count : ℕ := registry.assets.entries.length

/-- The registry after the assets have been registered, one after the other. -/
def of (history : List AssetVersion) : GovernanceRegistry :=
  history.foldl register ⟨.empty⟩

end GovernanceRegistry

/-- `build_release_manifest`. -/
def buildReleaseManifest (py : PyLib) (releaseId : String) (governance : GovernanceRegistry)
    (modelId promptId : String) (now : Instant) : AgentReleaseManifest where
  releaseId := releaseId
  model := if modelId ≠ "" then governance.get .model modelId none else none
  prompt := if promptId ≠ "" then governance.get .prompt promptId none else none
  releasedAt := py.isoformat now

/-! ## What is registered -/

/-- The asset is the last one of the history with its type, id and version. -/
def RegisteredLast (history : List AssetVersion) (asset : AssetVersion) : Prop :=
  ∃ before after, history = before ++ asset :: after ∧ ∀ other ∈ after, other.key ≠ asset.key

section Registry

variable {history : List AssetVersion} {asset : AssetVersion} {key : AssetKey}
  {assetType : AssetType} {assetId version : String}

open GovernanceRegistry

theorem GovernanceRegistry.of_concat (history : List AssetVersion) (asset : AssetVersion) :
    of (history ++ [asset]) = (of history).register asset := by
  simp [of]

theorem registeredLast_concat_iff {other : AssetVersion} :
    RegisteredLast (history ++ [asset]) other ↔
      other = asset ∨ other.key ≠ asset.key ∧ RegisteredLast history other := by
  constructor
  · rintro ⟨before, after, hsplit, hafter⟩
    cases after using List.reverseRecOn with
    | nil =>
      left
      exact (List.singleton_inj.mp (List.append_inj' hsplit rfl).2).symm
    | append_singleton after last =>
      right
      rw [← List.cons_append, ← List.append_assoc] at hsplit
      obtain ⟨hhistory, hlast⟩ := List.append_inj' hsplit rfl
      obtain rfl := List.singleton_inj.mp hlast
      refine ⟨(hafter _ (by simp)).symm, before, after, hhistory, fun a ha => hafter a ?_⟩
      exact List.mem_append_left _ ha
  · rintro (rfl | ⟨hkey, before, after, rfl, hafter⟩)
    · exact ⟨history, [], rfl, by simp⟩
    · refine ⟨before, after ++ [asset], by simp, fun a ha => ?_⟩
      rcases List.mem_append.mp ha with ha | ha
      · exact hafter a ha
      · rw [List.mem_singleton.mp ha]
        exact hkey.symm

/-- **The registry** holds under a key what was registered last under it. -/
theorem get?_of : (of history).assets.get? key = some asset ↔
    asset.key = key ∧ RegisteredLast history asset := by
  induction history using List.reverseRecOn with
  | nil => simp [of, RegisteredLast]
  | append_singleton history last ih =>
    rw [GovernanceRegistry.of_concat, register, OrderedDict.get?_set, registeredLast_concat_iff]
    by_cases hkey : key = last.key
    · subst hkey
      rw [if_pos rfl, Option.some_inj]
      constructor
      · rintro rfl
        exact ⟨rfl, .inl rfl⟩
      · rintro ⟨hsame, rfl | ⟨hne, -⟩⟩
        · rfl
        · exact absurd hsame hne
    · rw [if_neg hkey, ih]
      refine and_congr_right fun hsame => ?_
      subst hsame
      constructor
      · exact fun hlast => .inr ⟨hkey, hlast⟩
      · rintro (rfl | ⟨-, hlast⟩)
        · exact absurd rfl hkey
        · exact hlast

/-- What is in the history was registered last, or something after it under its key was. -/
theorem exists_registeredLast (h : asset ∈ history) :
    ∃ last, last.key = asset.key ∧ RegisteredLast history last := by
  induction history using List.reverseRecOn with
  | nil => cases h
  | append_singleton history new ih =>
    by_cases hkey : new.key = asset.key
    · exact ⟨new, hkey, registeredLast_concat_iff.mpr (.inl rfl)⟩
    · have hmem : asset ∈ history := by
        rcases List.mem_append.mp h with h | h
        · exact h
        · rw [List.mem_singleton.mp h] at hkey
          exact absurd rfl hkey
      obtain ⟨last, hlast, hregistered⟩ := ih hmem
      exact ⟨last, hlast, registeredLast_concat_iff.mpr
        (.inr ⟨hlast ▸ Ne.symm hkey, hregistered⟩)⟩

theorem RegisteredLast.mem (h : RegisteredLast history asset) : asset ∈ history := by
  obtain ⟨before, after, rfl, -⟩ := h
  simp

/-! ## The latest version -/

instance : Std.Total NotBehind := ⟨fun c c' => String.le_total c'.1.2.2 c.1.2.2⟩

instance : IsTrans _ NotBehind := ⟨fun _ _ _ h h' => String.le_trans h' h⟩

/-- The candidates are what was registered last for the type and the id, under its key. -/
theorem mem_candidates_iff {c : AssetKey × AssetVersion} :
    c ∈ (of history).candidates assetType assetId ↔ c.1 = c.2.key ∧ c.2.assetType = assetType ∧
      c.2.assetId = assetId ∧ RegisteredLast history c.2 := by
  obtain ⟨key, asset⟩ := c
  rw [GovernanceRegistry.candidates, List.mem_filter, ← OrderedDict.get?_eq_some_iff, get?_of,
    Bool.and_eq_true, decide_eq_true_eq, decide_eq_true_eq]
  constructor
  · rintro ⟨⟨rfl, hlast⟩, htype, hid⟩
    exact ⟨rfl, htype, hid, hlast⟩
  · rintro ⟨hkey, htype, hid, hlast⟩
    obtain rfl : key = asset.key := hkey
    exact ⟨⟨rfl, hlast⟩, htype, hid⟩

/-- A candidate that is not behind any other has the last of all texts. -/
theorem version_le_of_mem_candidates {c : AssetKey × AssetVersion} {other : AssetVersion}
    (hfirst : ∀ d ∈ (of history).candidates assetType assetId, NotBehind c d)
    (hc : c ∈ (of history).candidates assetType assetId) (hother : other ∈ history)
    (htype : other.assetType = assetType) (hid : other.assetId = assetId) :
    other.version ≤ c.2.version := by
  obtain ⟨last, hsame, hlast⟩ := exists_registeredLast hother
  simp only [AssetVersion.key, Prod.mk.injEq] at hsame
  obtain ⟨hlasttype, hlastid, hversion⟩ := hsame
  have hle := hfirst (last.key, last)
    (mem_candidates_iff.mpr ⟨rfl, hlasttype.trans htype, hlastid.trans hid, hlast⟩)
  rw [NotBehind, (mem_candidates_iff.mp hc).1] at hle
  rw [← hversion]
  exact hle

/-- Two candidates with one text are one. -/
theorem candidates_nodup :
    (((of history).candidates assetType assetId).map fun c => c.1.2.2).Nodup := by
  have hkeys : (((of history).candidates assetType assetId).map Prod.fst).Nodup :=
    (of history).assets.nodup.sublist (List.filter_sublist.map _)
  have hmap : ((of history).candidates assetType assetId).map (fun c => c.1.2.2) =
      (((of history).candidates assetType assetId).map Prod.fst).map fun key => key.2.2 := by
    simp
  rw [hmap]
  refine hkeys.map_on fun key hkey key' hkey' hversion => ?_
  obtain ⟨c, hc, rfl⟩ := List.mem_map.mp hkey
  obtain ⟨c', hc', rfl⟩ := List.mem_map.mp hkey'
  simp only [GovernanceRegistry.candidates, List.mem_filter, Bool.and_eq_true,
    decide_eq_true_eq] at hc hc'
  exact Prod.ext (hc.2.1.trans hc'.2.1.symm) (Prod.ext (hc.2.2.trans hc'.2.2.symm) hversion)

/-- **Without a version** the registry gives what was registered last under the last of the
texts. -/
theorem get_latest_iff : (of history).get assetType assetId none = some asset ↔
    RegisteredLast history asset ∧ asset.assetType = assetType ∧ asset.assetId = assetId ∧
      ∀ other ∈ history, other.assetType = assetType → other.assetId = assetId →
        other.version ≤ asset.version := by
  have hget : (of history).get assetType assetId none = some asset ↔
      ∃ c, (((of history).candidates assetType assetId).insertionSort NotBehind).head? = some c ∧
        c.2 = asset := by
    simp [GovernanceRegistry.get]
  rw [hget]
  constructor
  · rintro ⟨c, hhead, rfl⟩
    obtain ⟨before, after, hsplit, hbefore, hafter⟩ := Ranking.head?_insertionSort_iff.mp hhead
    have hc : c ∈ (of history).candidates assetType assetId := by simp [hsplit]
    have hfirst : ∀ d ∈ (of history).candidates assetType assetId, NotBehind c d := by
      intro d hd
      rw [hsplit] at hd
      rcases List.mem_append.mp hd with hd | hd
      · exact (String.le_total _ _).resolve_right (hbefore d hd)
      · rcases List.mem_cons.mp hd with rfl | hd
        · exact String.le_refl _
        · exact hafter d hd
    obtain ⟨-, htype, hid, hlast⟩ := mem_candidates_iff.mp hc
    exact ⟨hlast, htype, hid, fun other => version_le_of_mem_candidates hfirst hc⟩
  · rintro ⟨hlast, rfl, rfl, hgreatest⟩
    have hfirst : ∀ d ∈ (of history).candidates asset.assetType asset.assetId,
        NotBehind (asset.key, asset) d := by
      intro d hd
      obtain ⟨hkey, htype, hid, hregistered⟩ := mem_candidates_iff.mp hd
      rw [NotBehind, hkey]
      exact hgreatest d.2 hregistered.mem htype hid
    obtain ⟨before, after, hsplit⟩ := List.append_of_mem
      (mem_candidates_iff.mpr ⟨rfl, rfl, rfl, hlast⟩ :
        (asset.key, asset) ∈ (of history).candidates asset.assetType asset.assetId)
    refine ⟨_, Ranking.head?_insertionSort_iff.mpr ⟨before, after, hsplit, fun d hd hbehind => ?_,
      fun d hd => hfirst d (by simp [hsplit, hd])⟩, rfl⟩
    -- what stands before it and is not behind it has its text
    have htext := String.le_antisymm (hfirst d (by simp [hsplit, hd])) hbehind
    have hnodup : (((of history).candidates asset.assetType asset.assetId).map
        fun c => c.1.2.2).Nodup := candidates_nodup
    rw [hsplit, List.map_append, List.map_cons, List.nodup_append] at hnodup
    exact hnodup.2.2 _ (List.mem_map_of_mem hd) _ (by simp) htext

end Registry

/-! ## Versions of the form `major.minor.patch` -/

section Latest

variable (history : List AssetVersion) (assetType : AssetType) (assetId : String)

/-- The version is registered for the type and the id. -/
def Registered (number : VersionNumber) : Prop :=
  ∃ asset ∈ history, asset.assetType = assetType ∧ asset.assetId = assetId ∧
    asset.version = number.text

/-- The asset was registered last under the latest version of its type and id. -/
def IsLatestVersion (asset : AssetVersion) : Prop :=
  RegisteredLast history asset ∧ asset.assetType = assetType ∧ asset.assetId = assetId ∧
    ∃ number : VersionNumber, asset.version = number.text ∧
      ∀ other, Registered history assetType assetId other → other ≤ number

/-- `get` without a version gives the latest version of the type and the id, and a release that is
built for the id records it. -/
structure GivesLatest (py : PyLib) : Prop where
  get : ∀ asset, (GovernanceRegistry.of history).get assetType assetId none = some asset ↔
    IsLatestVersion history assetType assetId asset
  model : assetType = .model → assetId ≠ "" → ∀ releaseId promptId now asset,
    (buildReleaseManifest py releaseId (.of history) assetId promptId now).model = some asset ↔
      IsLatestVersion history assetType assetId asset
  prompt : assetType = .prompt → assetId ≠ "" → ∀ releaseId modelId now asset,
    (buildReleaseManifest py releaseId (.of history) modelId assetId now).prompt = some asset ↔
      IsLatestVersion history assetType assetId asset

/-- In the first number in which another version differs from the latest, its decimal text comes
first. -/
def LatestReadsLast : Prop :=
  ∀ latest other, Registered history assetType assetId latest →
    Registered history assetType assetId other →
    (∀ number, Registered history assetType assetId number → number ≤ latest) →
      other.parts ≤ latest.parts

variable {history assetType assetId} {asset : AssetVersion} {number : VersionNumber}

/-- There is a latest version, if there is one at all. -/
theorem exists_latest (h : Registered history assetType assetId number) :
    ∃ latest, Registered history assetType assetId latest ∧
      ∀ other, Registered history assetType assetId other → other ≤ latest := by
  have hfinite : {n | Registered history assetType assetId n}.Finite := by
    refine Set.Finite.subset ((history.map AssetVersion.version).finite_toSet.preimage
      VersionNumber.text_injective.injOn) fun n hn => ?_
    obtain ⟨asset, hmem, -, -, hversion⟩ := hn
    exact List.mem_map.mpr ⟨asset, hmem, hversion⟩
  obtain ⟨latest, hlatest, hmax⟩ := Set.exists_max_image _ id hfinite ⟨number, h⟩
  exact ⟨latest, hlatest, hmax⟩

theorem RegisteredLast.registered (h : RegisteredLast history asset)
    (hversion : asset.version = number.text) :
    Registered history asset.assetType asset.assetId number :=
  ⟨asset, h.mem, rfl, rfl, hversion⟩

/-- A version is the latest one if it is the last text, and the texts agree with the numbers. -/
theorem isLatestVersion_iff (hform : ∀ asset ∈ history, ∃ number : VersionNumber,
      asset.version = number.text) (hlast : LatestReadsLast history assetType assetId) :
    IsLatestVersion history assetType assetId asset ↔
      RegisteredLast history asset ∧ asset.assetType = assetType ∧ asset.assetId = assetId ∧
        ∀ other ∈ history, other.assetType = assetType → other.assetId = assetId →
          other.version ≤ asset.version := by
  refine and_congr_right fun hregistered => and_congr_right fun htype =>
    and_congr_right fun hid => ?_
  subst htype hid
  constructor
  · rintro ⟨number, hversion, hgreatest⟩ other hother hothertype hotherid
    obtain ⟨m, hm⟩ := hform other hother
    rw [hversion, hm, VersionNumber.text_le_iff]
    exact hlast number m (hregistered.registered hversion)
      ⟨other, hother, hothertype, hotherid, hm⟩ hgreatest
  · intro hgreatest
    obtain ⟨number, hversion⟩ := hform asset hregistered.mem
    obtain ⟨latest, hlatest, hmax⟩ := exists_latest (hregistered.registered hversion)
    -- the last text is the text of the latest version
    have hle := hlast latest number hlatest (hregistered.registered hversion) hmax
    obtain ⟨other, hother, hothertype, hotherid, hotherversion⟩ := hlatest
    have hge := hgreatest other hother hothertype hotherid
    rw [hversion, hotherversion, VersionNumber.text_le_iff] at hge
    obtain rfl := VersionNumber.parts_injective (le_antisymm hle hge)
    exact ⟨number, hversion, hmax⟩

/-- If the registry gives the latest version, its text is the last one. -/
theorem latestReadsLast_of_get (h : ∀ asset,
      (GovernanceRegistry.of history).get assetType assetId none = some asset ↔
        IsLatestVersion history assetType assetId asset) :
    LatestReadsLast history assetType assetId := by
  intro latest other hlatest hother hmax
  obtain ⟨asset, hmem, rfl, rfl, hversion⟩ := hlatest
  obtain ⟨last, hkey, hregistered⟩ := exists_registeredLast hmem
  simp only [AssetVersion.key, Prod.mk.injEq] at hkey
  obtain ⟨htype, hid, hsame⟩ := hkey
  have hget := (h last).mpr ⟨hregistered, htype, hid, latest, hsame.trans hversion, hmax⟩
  obtain ⟨-, -, -, hgreatest⟩ := get_latest_iff.mp hget
  obtain ⟨b, hb, hbtype, hbid, hbversion⟩ := hother
  have hle := hgreatest b hb hbtype hbid
  rw [hbversion, hsame.trans hversion, VersionNumber.text_le_iff] at hle
  exact hle

/-- **Equally many digits**: versions whose numbers are written alike are read alike. -/
theorem latestReadsLast_of_length_eq (h : ∀ n m, Registered history assetType assetId n →
      Registered history assetType assetId m →
        n.parts.map List.length = m.parts.map List.length) :
    LatestReadsLast history assetType assetId := by
  intro latest other hlatest hother hmax
  rw [VersionNumber.parts_le_iff_of_length_eq (h other latest hother hlatest)]
  exact hmax other hother

end Latest

/-- **The latest version**: among versions of the form `major.minor.patch` the registry gives, and a
release records, what was registered last under the greatest one, exactly if every other one comes
first as a text in the first number in which it differs. -/
theorem latest_version_iff (py : PyLib) (history : List AssetVersion) (assetType : AssetType)
    (assetId : String)
    (hform : ∀ asset ∈ history, ∃ number : VersionNumber, asset.version = number.text) :
    GivesLatest history assetType assetId py ↔ LatestReadsLast history assetType assetId := by
  constructor
  · exact fun h => latestReadsLast_of_get h.get
  · intro hlast
    have hget : ∀ asset, (GovernanceRegistry.of history).get assetType assetId none = some asset ↔
        IsLatestVersion history assetType assetId asset := by
      intro asset
      rw [get_latest_iff, isLatestVersion_iff hform hlast]
    refine ⟨hget, ?_, ?_⟩
    · rintro rfl hid releaseId promptId now asset
      rw [← hget, buildReleaseManifest, if_pos hid]
    · rintro rfl hid releaseId modelId now asset
      rw [← hget, buildReleaseManifest, if_pos hid]

/-- A version of a model. -/
def modelVersion (number : VersionNumber) : AssetVersion :=
  { assetType := .model, assetId := "deepseek-v4", version := number.text }

theorem registered_modelVersion_iff {numbers : List VersionNumber} {number : VersionNumber} :
    Registered (numbers.map modelVersion) .model "deepseek-v4" number ↔ number ∈ numbers := by
  simp only [Registered, List.mem_map]
  constructor
  · rintro ⟨-, ⟨n, hn, rfl⟩, -, -, htext⟩
    rw [← VersionNumber.text_injective htext]
    exact hn
  · exact fun hmem => ⟨_, ⟨number, hmem, rfl⟩, rfl, rfl, rfl⟩

/-- Two releases of a model, with one digit for each number. -/
theorem second_release_given : GivesLatest ([⟨1, 2, 0⟩, ⟨1, 9, 3⟩].map modelVersion) .model
    "deepseek-v4" demoPy := by
  refine (latest_version_iff demoPy _ _ _ ?_).mpr (latestReadsLast_of_length_eq ?_)
  · simp [modelVersion]
  · intro n m hn hm
    rw [registered_modelVersion_iff] at hn hm
    have hdigits : ∀ v ∈ [(⟨1, 2, 0⟩ : VersionNumber), ⟨1, 9, 3⟩],
        v.parts.map List.length = [1, 1, 1] := by decide
    rw [hdigits n hn, hdigits m hm]

/-- `1.10.0` is registered after `1.9.0`, and is not given. -/
theorem tenth_release_not_given :
    ¬ GivesLatest ([⟨1, 9, 0⟩, ⟨1, 10, 0⟩].map modelVersion) .model "deepseek-v4" demoPy ∧
      ((GovernanceRegistry.of ([⟨1, 9, 0⟩, ⟨1, 10, 0⟩].map modelVersion)).get .model "deepseek-v4"
        none).map AssetVersion.version = some "1.9.0" := by
  refine ⟨fun h => ?_, by decide⟩
  have hlatest := latestReadsLast_of_get h.get ⟨1, 10, 0⟩ ⟨1, 9, 0⟩
  simp only [registered_modelVersion_iff] at hlatest
  exact absurd (hlatest (by decide) (by decide) (by decide)) (by decide)

end BankingAgent
