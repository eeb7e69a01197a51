import ProjectComposer.BuiltIn.Package
import ProjectComposer.Json.Writer
import ProjectComposer.Plugin.Basic

/-!
Quality gates of a repository: continuous integration, linting, formatting, tests and hooks that run
before a commit, all configured at the root of the project.
-/
namespace ProjectComposer.BuiltIn.QualityGates
set_option autoImplicit false
open Wire Named Options

/-! ## Continuous integration -/

def ciSteps (o : QualityGates) : List String :=
  included [
    ("pnpm lint", true),
    ("pnpm format:check", true),
    ("pnpm typecheck", o.typecheck),
    ("pnpm test:coverage", true),
    ("pnpm audit --audit-level high", o.dependencyAudit)]

/-- The steps, each on a line of its own behind a lead. -/
def stepLines (o : QualityGates) (lead : String) : String :=
  Text.joinTexts "\n" ((ciSteps o).map fun s => lead ++ s)

def securityJob : String :=
  Text.lines [
    "",
    "  security:",
    "    runs-on: ubuntu-latest",
    "    permissions:",
    "      security-events: write",
    "    steps:",
    "      - uses: actions/checkout@v4",
    "      - uses: github/codeql-action/init@v3",
    "        with:",
    "          languages: javascript-typescript",
    "      - uses: github/codeql-action/analyze@v3"]

def githubWorkflow (o : QualityGates) (project : String) : String :=
  let steps := stepLines o "      - run: "
  let security := if o.securityScanning then securityJob else ""
  Text.lines [
    "name: CI (" ++ project ++ ")",
    "",
    "on:",
    "  push:",
    "    branches: [main]",
    "  pull_request:",
    "",
    "jobs:",
    "  quality:",
    "    runs-on: ubuntu-latest",
    "    steps:",
    "      - uses: actions/checkout@v4",
    "      - uses: pnpm/action-setup@v4",
    "      - uses: actions/setup-node@v4",
    "        with:",
    "          node-version: 20",
    "          cache: pnpm",
    "      - run: pnpm install --frozen-lockfile",
    steps] ++ security

def gitlabPipeline (o : QualityGates) : String :=
  let steps := stepLines o "    - "
  Text.lines [
    "image: node:20",
    "",
    "quality:",
    "  script:",
    "    - corepack enable",
    "    - pnpm install --frozen-lockfile",
    steps]

def circlePipeline (o : QualityGates) : String :=
  let steps := stepLines o "      - run: "
  Text.lines [
    "version: 2.1",
    "",
    "jobs:",
    "  quality:",
    "    docker:",
    "      - image: cimg/node:20.11",
    "    steps:",
    "      - checkout",
    "      - run: corepack enable && pnpm install --frozen-lockfile",
    steps,
    "",
    "workflows:",
    "  ci:",
    "    jobs:",
    "      - quality"]

def ciFile (o : QualityGates) (project : String) : File :=
  match o.ciProvider with
  | .githubActions => ⟨".github/workflows/ci.yml", githubWorkflow o project, some .root⟩
  | .gitlabCi => ⟨".gitlab-ci.yml", gitlabPipeline o, some .root⟩
  | .circleci => ⟨".circleci/config.yml", circlePipeline o, some .root⟩

/-! ## Linting and formatting -/

/-- A document with a line feed at its end. -/
def documentText (v : Json) : String :=
  v.indented ++ "\n"

def biomeConfig (o : QualityGates) : String :=
  documentText <| .object [
    ("$schema", .text "https://biomejs.dev/schemas/1.8.3/schema.json"),
    ("organizeImports", .object [("enabled", .bool true)]),
    ("linter", .object [
      ("enabled", .bool (o.linter = .biome)),
      ("rules", .object [("recommended", .bool true)])]),
    ("formatter", .object [
      ("enabled", .bool (o.formatter = .biome)),
      ("indentStyle", .text "space"),
      ("indentWidth", .int 2)]),
    ("files", .object [
      ("ignore", Json.texts ["node_modules", ".next", "dist", "coverage", "target"])])]

def eslintConfig : String :=
  Text.lines [
    "import js from '@eslint/js';",
    "",
    "export default [",
    "  js.configs.recommended,",
    "  \x7b ignores: ['node_modules/', '.next/', 'dist/', 'coverage/'] \x7d,",
    "];"]

def prettierConfig : String :=
  Text.lines [
    "\x7b",
    "  \"singleQuote\": true,",
    "  \"semi\": true",
    "\x7d"]

def prettierIgnore : String :=
  Text.lines [
    "dist/",
    ".next/",
    "node_modules/",
    "coverage/",
    "target/"]

def usesBiome (o : QualityGates) : Bool :=
  o.linter = .biome || o.formatter = .biome

def styleFiles (o : QualityGates) : List File :=
  included [
    (⟨"biome.json", biomeConfig o, some .root⟩, usesBiome o),
    (⟨"eslint.config.js", eslintConfig, some .root⟩, o.linter = .eslint),
    (⟨".prettierrc", prettierConfig, some .root⟩, o.formatter = .prettier),
    (⟨".prettierignore", prettierIgnore, some .root⟩, o.formatter = .prettier)]

/-! ## Tests -/

def vitestConfig (o : QualityGates) : String :=
  let threshold := toString o.coverageThreshold
  Text.lines [
    "import \x7b defineConfig \x7d from 'vitest/config';",
    "",
    "export default defineConfig(\x7b",
    "  test: \x7b",
    "    coverage: \x7b",
    "      provider: 'v8',",
    "      thresholds: \x7b lines: " ++ threshold ++ ", functions: " ++ threshold ++
      ", branches: " ++ threshold ++ ", statements: " ++ threshold ++ " \x7d,",
    "    \x7d,",
    "  \x7d,",
    "\x7d);"]

def jestConfig (o : QualityGates) : String :=
  let threshold := toString o.coverageThreshold
  Text.lines [
    "module.exports = \x7b",
    "  testEnvironment: 'node',",
    "  coverageThreshold: \x7b",
    "    global: \x7b lines: " ++ threshold ++ ", functions: " ++ threshold ++ ", branches: " ++
      threshold ++ ", statements: " ++ threshold ++ " \x7d,",
    "  \x7d,",
    "\x7d;"]

def testFiles (o : QualityGates) : List File :=
  match o.testFramework with
  | .vitest => [⟨"vitest.config.ts", vitestConfig o, some .root⟩]
  | .jest => [⟨"jest.config.js", jestConfig o, some .root⟩]
  | .mocha => []

/-! ## Other files -/

def tsconfig : String :=
  documentText <| .object [
    ("compilerOptions", .object [
      ("target", .text "ES2022"),
      ("module", .text "ESNext"),
      ("moduleResolution", .text "bundler"),
      ("strict", .bool true),
      ("skipLibCheck", .bool true),
      ("noEmit", .bool true)]),
    ("exclude", Json.texts ["node_modules", "dist", "coverage"])]

def preCommitHook (o : QualityGates) : String :=
  let typecheck := if o.typecheck then "pnpm typecheck\n" else ""
  Text.lines [
    "#!/usr/bin/env sh",
    "npx lint-staged"] ++ typecheck

def stagedFix : QualityGates.Linter → String
  | .biome => "biome lint --write"
  | .eslint => "eslint --fix"

def stagedFormat : QualityGates.Formatter → String
  | .biome => "biome format --write"
  | .prettier => "prettier --write"

def lintStaged (o : QualityGates) : String :=
  documentText <| .object [
    ("*.\x7bjs,jsx,ts,tsx\x7d", Json.texts [stagedFix o.linter, stagedFormat o.formatter]),
    ("*.\x7bjson,md,yml,yaml\x7d", Json.texts [stagedFormat o.formatter])]

def editorConfig : String :=
  Text.lines [
    "root = true",
    "",
    "[*]",
    "indent_style = space",
    "indent_size = 2",
    "end_of_line = lf",
    "charset = utf-8",
    "trim_trailing_whitespace = true",
    "insert_final_newline = true",
    "",
    "[*.md]",
    "trim_trailing_whitespace = false",
    "",
    "[*.\x7brs,toml\x7d]",
    "indent_size = 4"]

def docs (o : QualityGates) : String :=
  let table := Text.joinTexts "\n" <| included [
    ("| " ++ name o.linter ++ " | Linting | `pnpm lint` |", true),
    ("| " ++ name o.formatter ++ " | Formatting | `pnpm format` |", true),
    ("| " ++ name o.testFramework ++ " | Testing | `pnpm test` |", true),
    ("| TypeScript | Type Checking | `pnpm typecheck` |", o.typecheck)]
  Text.lines [
    "This project runs the following quality gates locally and in CI (" ++ name o.ciProvider ++
      ").",
    "",
    "| Tool | Purpose | Command |",
    "|------|---------|---------|",
    table,
    "",
    "Coverage must stay at or above " ++ toString o.coverageThreshold ++ "%."]

/-! ## Scripts and packages -/

def scripts (o : QualityGates) : List Script :=
  let lint := match o.linter with
    | .biome => ("biome lint .", "biome lint --write .")
    | .eslint => ("eslint .", "eslint --fix .")
  let format := match o.formatter with
    | .biome => ("biome format --write .", "biome format .")
    | .prettier => ("prettier --write .", "prettier --check .")
  let test := match o.testFramework with
    | .vitest => ("vitest run", "vitest run --coverage")
    | .jest => ("jest", "jest --coverage")
    | .mocha => ("mocha", "mocha --reporter spec")
  included [
    (⟨"typecheck", "tsc --noEmit", some "Run type checker"⟩, o.typecheck),
    (⟨"prepare", "husky", some "Set up git hooks"⟩, o.preCommitHooks),
    (⟨"lint", lint.1, some "Run linter"⟩, true),
    (⟨"lint:fix", lint.2, some "Fix lint errors"⟩, true),
    (⟨"format", format.1, some "Format code"⟩, true),
    (⟨"format:check", format.2, some "Check formatting"⟩, true),
    (⟨"test", test.1, some "Run tests"⟩, true),
    (⟨"test:coverage", test.2, some "Run tests with coverage"⟩, true)]

def dependencies (o : QualityGates) : List Dependency :=
  included [
    (Package.biome.development, usesBiome o),
    (Package.eslint.development, o.linter = .eslint),
    (Package.prettier.development, o.formatter = .prettier),
    (Package.vitest.development, o.testFramework = .vitest),
    (Package.vitestCoverage.development, o.testFramework = .vitest),
    (Package.jest.development, o.testFramework = .jest),
    (Package.mocha.development, o.testFramework = .mocha),
    (Package.typescript.development, o.typecheck),
    (Package.husky.development, o.preCommitHooks),
    (Package.lintStaged.development, o.preCommitHooks)]

/-! ## Generator -/

def files (o : QualityGates) (project : String) : List File :=
  [ciFile o project] ++ styleFiles o ++ testFiles o ++
  included [
    (⟨"tsconfig.json", tsconfig, some .root⟩, o.typecheck),
    (⟨".husky/pre-commit", preCommitHook o, some .root⟩, o.preCommitHooks),
    (⟨".lintstagedrc", lintStaged o, some .root⟩, o.preCommitHooks),
    (⟨".editorconfig", editorConfig, some .root⟩, true)]

def output (o : QualityGates) (project : String) : Output where
  files := files o project
  scripts := scripts o
  docs := [⟨"docs/development/quality.md", "Code Quality Guidelines", docs o⟩]
  dependencies := dependencies o

def options : Config → QualityGates
  | .qualityGates o => o
  | _ => {}

def generate (_ : Node) (c : Context) : Generated :=
  let o := options c.config
  { log := ["Generated repository quality gates (" ++ name o.ciProvider ++ ", " ++
      name o.testFramework ++ ")"]
    result := .ok (.output (output o c.settings.project.name)) }

def plugin : Plugin where
  card :=
    { id := "repo-quality-gates"
      name := "Repository Quality Gates"
      description := "Generate CI/CD pipelines, testing, linting, and formatting configuration"
      field := .quality
      tags := ["ci", "testing", "lint", "format", "quality"] }
  schema := .qualityGates
  ports := [
    { id := "config-out", name := "Quality Config", direction := .output, dataType := .config }]
  generate := generate

end ProjectComposer.BuiltIn.QualityGates
