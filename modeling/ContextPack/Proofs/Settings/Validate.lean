import ContextPack.Proofs.Number.Exact
import ContextPack.Settings.Validate

namespace ContextPack

/-!
# What acceptable settings promise

Settings are acceptable when no rule is broken.  Each stage reads off the rules
that it rests on.
-/

namespace Settings

section Rules

variable {α : Type} [Scalar α] {settings : Settings α}

theorem not_broken_of_acceptable (acceptable : settings.problems = []) {broken : Bool}
    {problem : SettingsProblem α} (isRule : (broken, problem) ∈ settings.rules) : broken = false := by
  have silent := List.filterMap_eq_nil_iff.mp acceptable (broken, problem) isRule
  cases broken with
  | false => rfl
  | true => cases silent

theorem minSimilarity_of_acceptable (acceptable : settings.problems = []) :
    Scalar.le Scalar.zero settings.lexical.minSimilarity = true ∧
      Scalar.le settings.lexical.minSimilarity Scalar.one = true := by
  have isRule : (!Scalar.within settings.lexical.minSimilarity Scalar.zero Scalar.one,
      SettingsProblem.minSimilarity) ∈ settings.rules := by
    simp [rules]
  simpa [Scalar.within] using not_broken_of_acceptable acceptable isRule

theorem lexicalWeights_of_acceptable (acceptable : settings.problems = []) :
    Scalar.lt settings.lexical.weightMin Scalar.zero = false ∧
      Scalar.lt settings.lexical.weightMax settings.lexical.weightMin = false := by
  have isRule : (Scalar.lt settings.lexical.weightMin Scalar.zero ||
      Scalar.lt settings.lexical.weightMax settings.lexical.weightMin,
        SettingsProblem.lexicalWeights) ∈ settings.rules := by
    simp [rules]
  simpa using not_broken_of_acceptable acceptable isRule

end Rules

variable {settings : Settings ℚ}

theorem alpha_of_acceptable (acceptable : settings.problems = []) :
    0 < settings.walk.alpha ∧ settings.walk.alpha < 1 := by
  have isRule : (!(Scalar.lt Scalar.zero settings.walk.alpha &&
      Scalar.lt settings.walk.alpha Scalar.one), SettingsProblem.alphaOutside settings.walk.alpha) ∈
        settings.rules := by
    simp [rules]
  simpa using not_broken_of_acceptable acceptable isRule

theorem maxIterations_of_acceptable (acceptable : settings.problems = []) :
    0 < settings.walk.maxIterations := by
  have isRule : (settings.walk.maxIterations == 0, SettingsProblem.noIterations) ∈
      settings.rules := by
    simp [rules]
  simpa [Nat.pos_iff_ne_zero] using not_broken_of_acceptable acceptable isRule

/-- The defaults break no rule. -/
theorem default_acceptable : (Settings.default : Settings ℚ).problems = [] := by
  norm_num [problems, rules, default, WalkSettings.default, LexicalSettings.default,
    ReferenceSettings.default, CochangeSettings.default, SiblingSettings.default,
    Fusion.hasNegativeWeight, Scalar.within]

end Settings

end ContextPack
