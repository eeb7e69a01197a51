import ProjectComposer.Artifact.Output
import ProjectComposer.Text.Sorted
import ProjectComposer.Text.Segments

/-!
Parts that several of the built-in generators share: the packages that they depend on, each with one
version for all of them, and the contract addresses that producers expose.
-/
namespace ProjectComposer.BuiltIn
set_option autoImplicit false

/-! ## Packages -/

structure Package where
  name : String
  version : String

def Package.runtime (p : Package) : Dependency :=
  ⟨p.name, p.version, false⟩

def Package.development (p : Package) : Dependency :=
  ⟨p.name, p.version, true⟩

namespace Package

def biome : Package := ⟨"@biomejs/biome", "^1.8.3"⟩
def rainbowKit : Package := ⟨"@rainbow-me/rainbowkit", "^2.1.0"⟩
def reactQuery : Package := ⟨"@tanstack/react-query", "^5.51.0"⟩
def nodeTypes : Package := ⟨"@types/node", "^20.14.0"⟩
def reactTypes : Package := ⟨"@types/react", "^18.3.3"⟩
def vitestCoverage : Package := ⟨"@vitest/coverage-v8", "^2.0.5"⟩
def eslint : Package := ⟨"eslint", "^9.8.0"⟩
def grammy : Package := ⟨"grammy", "^1.30.0"⟩
def husky : Package := ⟨"husky", "^9.1.4"⟩
def jest : Package := ⟨"jest", "^29.7.0"⟩
def lintStaged : Package := ⟨"lint-staged", "^15.2.7"⟩
def mocha : Package := ⟨"mocha", "^10.7.0"⟩
def next : Package := ⟨"next", "14.2.5"⟩
def prettier : Package := ⟨"prettier", "^3.3.3"⟩
def react : Package := ⟨"react", "^18.3.1"⟩
def reactDom : Package := ⟨"react-dom", "^18.3.1"⟩
def tailwind : Package := ⟨"tailwindcss", "^3.4.7"⟩
def telegraf : Package := ⟨"telegraf", "^4.16.3"⟩
def tsNode : Package := ⟨"ts-node", "^10.9.2"⟩
def typescript : Package := ⟨"typescript", "^5.5.0"⟩
def viem : Package := ⟨"viem", "^2.21.0"⟩
def vitest : Package := ⟨"vitest", "^2.0.5"⟩
def wagmi : Package := ⟨"wagmi", "^2.12.0"⟩

end Package

/-! ## Addresses -/

def isAddressKey (key : String) : Bool :=
  Text.endsWith "_ADDRESS" key

/-- The variables of contract addresses by key, each with the default that comes first. -/
def addresses (outputs : List Output) : List (String × String) :=
  let vars := (outputs.flatMap (·.envVars)).filter fun v => isAddressKey v.key
  (Text.sortedDistinct (vars.map (·.key))).map fun key =>
    (key, ((vars.find? fun v => v.key = key).bind (·.default)).getD "")

/-! ## Words -/

def flag (b : Bool) : String :=
  if b then "true" else "false"

/-- The items of a list, each included under a condition. -/
def included {α : Type} (items : List (α × Bool)) : List α :=
  (items.filter (·.2)).map (·.1)

end ProjectComposer.BuiltIn
