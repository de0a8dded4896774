import ContextPack.Settings.Basic

/-!
# Acceptable settings

Ranking and budgeting rest on ranges that the settings must keep.  Each broken
rule is a value of `SettingsProblem`, so that a report can list all of them.
Some rules ask that a comparison holds and others that one fails, which
differs on not-a-number.
-/

namespace ContextPack

/-- A rule that settings break. -/
inductive SettingsProblem (α : Type) where
  | noFragments
  | noDefaultBudget
  | alphaOutside (alpha : α)
  | tolerance
  | noIterations
  | minSimilarity
  | hubPercentile
  | maxDocumentRatio
  | lexicalWeights
  | lexicalBackwardFactor
  | noPostings
  | referenceBackwardFactor
  | referenceWeights
  | cochangeWeight
  | noMinCount
  | siblingWeight
  | fusionWeights

namespace SettingsProblem

variable {α : Type}

/-- What a report says about a broken rule. -/
def message (plain : α → String) : SettingsProblem α → String
  | noFragments => "limits.max_fragments must be at least 1"
  | noDefaultBudget => "limits.default_budget_tokens must be positive"
  | alphaOutside alpha => "ppr.alpha must be in (0, 1), got " ++ plain alpha
  | tolerance => "ppr.tolerance must be positive"
  | noIterations => "ppr.max_iterations must be at least 1"
  | minSimilarity => "lexical.min_similarity must be in [0, 1]"
  | hubPercentile => "lexical.hub_percentile must be in (0, 1]"
  | maxDocumentRatio => "lexical.max_df_ratio must be in (0, 1]"
  | lexicalWeights => "lexical weights must satisfy 0 <= weight_min <= weight_max"
  | lexicalBackwardFactor => "lexical.backward_factor must be in [0, 1]"
  | noPostings => "lexical.max_postings must be at least 1"
  | referenceBackwardFactor => "graph.backward_factor must be in [0, 1)"
  | referenceWeights => "graph weights must be non-negative"
  | cochangeWeight => "cochange.weight must be non-negative"
  | noMinCount => "cochange.min_count must be at least 1"
  | siblingWeight => "sibling.edge_weight must be non-negative"
  | fusionWeights => "assemble.fusion weights must be non-negative"

end SettingsProblem

open Scalar (lt le zero one within)

variable {α : Type} [Scalar α]

/-- Whether a weight in a weighted sum is below zero. -/
def Fusion.hasNegativeWeight : Fusion α → Bool
  | .weighted walk lexical cochange => lt walk zero || lt lexical zero || lt cochange zero
  | _ => false

/-- The rules in report order, each with whether it is broken. -/
def Settings.rules (settings : Settings α) : List (Bool × SettingsProblem α) :=
  let walk := settings.walk
  let lexical := settings.lexical
  let references := settings.references
  [(settings.limits.maxFragments == 0, .noFragments),
   (settings.limits.defaultBudget == 0, .noDefaultBudget),
   (!(lt zero walk.alpha && lt walk.alpha one), .alphaOutside walk.alpha),
   (le walk.tolerance zero, .tolerance),
   (walk.maxIterations == 0, .noIterations),
   (!within lexical.minSimilarity zero one, .minSimilarity),
   (!(lt zero lexical.hubPercentile && le lexical.hubPercentile one), .hubPercentile),
   (!(lt zero lexical.maxDocumentRatio && le lexical.maxDocumentRatio one), .maxDocumentRatio),
   (lt lexical.weightMin zero || lt lexical.weightMax lexical.weightMin, .lexicalWeights),
   (!within lexical.backwardFactor zero one, .lexicalBackwardFactor),
   (lexical.maxPostings == 0, .noPostings),
   (!(le zero references.backwardFactor && lt references.backwardFactor one),
     .referenceBackwardFactor),
   (lt references.symbolWeight zero || lt references.importWeight zero, .referenceWeights),
   (lt settings.cochange.weight zero, .cochangeWeight),
   (settings.cochange.minCount == 0, .noMinCount),
   (lt settings.sibling.edgeWeight zero, .siblingWeight),
   (settings.assembly.fusion.hasNegativeWeight, .fusionWeights)]

/-- The rules that settings break, in report order. -/
def Settings.problems (settings : Settings α) : List (SettingsProblem α) :=
  settings.rules.filterMap fun (broken, problem) => if broken then some problem else none

/-- All problems in one line. -/
def problemReport (plain : α → String) (problems : List (SettingsProblem α)) : String :=
  String.intercalate "; " (problems.map (SettingsProblem.message plain))

end ContextPack
