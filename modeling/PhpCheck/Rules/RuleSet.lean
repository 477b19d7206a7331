/-
  PhpCheck/Rules/RuleSet.lean
  ===========================
  **Sets of rules** — which rules look at which nodes, and the diagnostics that
  they make of them.

  The rules for one kind of node run in the order of their registration.  A rule
  that fails says nothing about the node, and the other rules run all the same;
  hence `process` cannot fail.
-/
import PhpCheck.Rules.Hints
import PhpCheck.Rules.Instantiations
import PhpCheck.Rules.MethodCalls
import PhpCheck.Rules.Report
import PhpCheck.Rules.StaticCalls
import PhpCheck.Rules.StaticProperties

namespace PhpCheck

structure Rule where
  kind : NodeKind
  check : SymbolTable → Env → Node → Analysis (List Finding)

/-- The rules for each kind of node, in the order of their registration. -/
structure RuleSet where
  rulesFor : NodeKind → List Rule

namespace RuleSet

def empty : RuleSet := ⟨fun _ => []⟩

def register (s : RuleSet) (r : Rule) : RuleSet :=
  ⟨fun kind => if kind = r.kind then s.rulesFor kind ++ [r] else s.rulesFor kind⟩

def registerAll (s : RuleSet) (rs : List Rule) : RuleSet := rs.foldl register s

/-- The rules on calls, instantiations, static properties and hints. -/
def defaults (settings : Settings) : List Rule :=
  [⟨.methodCall, methodCallFindings settings⟩,
    ⟨.staticCall, staticCallFindings settings⟩,
    ⟨.new, instantiationFindings settings⟩,
    ⟨.staticProperty, staticPropertyFindings⟩,
    ⟨.method, methodHintFindings⟩,
    ⟨.closure, closureHintFindings⟩]

def count (s : RuleSet) (kind : NodeKind) : Nat := (s.rulesFor kind).length

def size (s : RuleSet) : Nat := NodeKind.all.foldl (fun n kind => n + s.count kind) 0

def isEmpty (s : RuleSet) : Bool := decide (s.size = 0)

/-- The kinds with rules, by name, and how many rules each has. -/
def counts (s : RuleSet) : List (String × Nat) :=
  let counted := NodeKind.all.map fun kind => (kind.name, s.count kind)
  (counted.filter fun entry => entry.2 != 0).mergeSort fun a b => decide (a.1 ≤ b.1)

def summary (s : RuleSet) : String :=
  let entries := s.counts.map fun entry => "(\"" ++ entry.1 ++ "\", " ++ toString entry.2 ++ ")"
  "Registry \x7b rules: [" ++ Text.joined ", " entries ++ "] \x7d"

end RuleSet

def Finding.diagnostic (f : Finding) (file : String) (node : Node) : Diagnostic :=
  ⟨file, f.complaint.message, f.line.or node.span.line?⟩

/-- The diagnostics that one rule makes of a node; none if the rule fails. -/
def Rule.diagnostics (r : Rule) (t : SymbolTable) (e : Env) (node : Node) :
    StateM Memory (List Diagnostic) := do
  match ← (r.check t e node).run with
  | .ok findings => return findings.map (·.diagnostic e.file node)
  | .error _ => return []

def RuleSet.process (s : RuleSet) (t : SymbolTable) (e : Env) (node : Node) :
    StateM Memory (List Diagnostic) := do
  let made ← (s.rulesFor node.kind).mapM fun r => r.diagnostics t e node
  return made.flatten

end PhpCheck
