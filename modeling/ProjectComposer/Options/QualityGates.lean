import ProjectComposer.Options.Labels

/-!
Options of the quality gates: continuous integration, tests, linting and formatting.
-/
namespace ProjectComposer.Options.QualityGates
set_option autoImplicit false
open Wire

/-! ## Alternatives -/

inductive CiProvider
  | githubActions
  | gitlabCi
  | circleci
  deriving DecidableEq, Repr

instance : Named CiProvider where
  all := [.githubActions, .gitlabCi, .circleci]
  name
    | .githubActions => "github-actions"
    | .gitlabCi => "gitlab-ci"
    | .circleci => "circleci"

inductive TestFramework
  | vitest
  | jest
  | mocha
  deriving DecidableEq, Repr

instance : Named TestFramework where
  all := [.vitest, .jest, .mocha]
  name
    | .vitest => "vitest"
    | .jest => "jest"
    | .mocha => "mocha"

inductive Linter
  | eslint
  | biome
  deriving DecidableEq, Repr

instance : Named Linter where
  all := [.eslint, .biome]
  name
    | .eslint => "eslint"
    | .biome => "biome"

inductive Formatter
  | prettier
  | biome
  deriving DecidableEq, Repr

instance : Named Formatter where
  all := [.prettier, .biome]
  name
    | .prettier => "prettier"
    | .biome => "biome"

end ProjectComposer.Options.QualityGates

namespace ProjectComposer.Options
open Wire

/-! ## Options -/

structure QualityGates extends Labels where
  ciProvider : QualityGates.CiProvider := .githubActions
  testFramework : QualityGates.TestFramework := .vitest
  linter : QualityGates.Linter := .biome
  formatter : QualityGates.Formatter := .biome
  typecheck : Bool := true
  preCommitHooks : Bool := true
  coverageThreshold : Int := 80
  securityScanning : Bool := true
  dependencyAudit : Bool := true
  deriving DecidableEq, Repr

def QualityGates.percentRule : Codec.IntRule :=
  { least := some 0, most := some 100 }

def QualityGates.codec : Codec QualityGates :=
  (Codec.record "RepoQualityGatesConfig" <| Labels.fields <|
    .withDefault ⟨"ci_provider", "ciProvider"⟩ .oneOf .githubActions <|
    .withDefault ⟨"test_framework", "testFramework"⟩ .oneOf .vitest <|
    .withDefault (.plain "linter") .oneOf .biome <|
    .withDefault (.plain "formatter") .oneOf .biome <|
    .withDefault (.plain "typecheck") .bool true <|
    .withDefault ⟨"pre_commit_hooks", "preCommitHooks"⟩ .bool true <|
    .withDefault ⟨"coverage_threshold", "coverageThreshold"⟩ (.intWith percentRule) 80 <|
    .withDefault ⟨"security_scanning", "securityScanning"⟩ .bool true <|
    .withDefault ⟨"dependency_audit", "dependencyAudit"⟩ .bool true .done).imap
    (fun (labels, ciProvider, testFramework, linter, formatter, typecheck, preCommitHooks,
      coverageThreshold,
      securityScanning, dependencyAudit, ()) =>
      { toLabels := labels
        ciProvider := ciProvider
        testFramework := testFramework
        linter := linter
        formatter := formatter
        typecheck := typecheck
        preCommitHooks := preCommitHooks
        coverageThreshold := coverageThreshold
        securityScanning := securityScanning
        dependencyAudit := dependencyAudit })
    (fun r => (r.toLabels, r.ciProvider, r.testFramework, r.linter, r.formatter, r.typecheck,
      r.preCommitHooks,
      r.coverageThreshold, r.securityScanning, r.dependencyAudit, ()))

end ProjectComposer.Options
