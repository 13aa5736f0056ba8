import GroupLasso.Decimal.Notation

/-!
The log of events on a path: screening that had to be widened, tolerances that were changed, Lagrange
values that were skipped.
-/

namespace GroupLasso

inductive DiagnosticKind where
  | unpenalizedRidge
  /-- The optimality checks added groups to the candidates. -/
  | expansion
  /-- The checks failed on candidates, so the solver tolerance was tightened. -/
  | tightening
  | relaxation
  | skip
  deriving DecidableEq, Repr

def DiagnosticKind.isWarning : DiagnosticKind → Bool
  | .unpenalizedRidge | .relaxation | .skip => true
  | .expansion | .tightening => false

inductive DiagnosticDetail (α : Type) where
  | unpenalizedRidge
  | expansion (groups : Nat)
  | tightening (groups : Nat) (tolerance : α)
  | relaxation (tolerance : α) (maxIterations : Nat)
  | skip
  | text (message : String)

structure Diagnostic (α : Type) where
  kind : DiagnosticKind
  lagrange : Option α
  detail : DiagnosticDetail α

structure DiagnosticLog (α : Type) where
  entries : List (Diagnostic α)

namespace DiagnosticLog

variable {α : Type}

def empty : DiagnosticLog α := ⟨[]⟩

def push (log : DiagnosticLog α) (entry : Diagnostic α) : DiagnosticLog α :=
  ⟨log.entries ++ [entry]⟩

def warnings (log : DiagnosticLog α) : List (Diagnostic α) :=
  log.entries.filter (·.kind.isWarning)

def count (log : DiagnosticLog α) (kind : DiagnosticKind) : Nat :=
  log.entries.countP (·.kind == kind)

def size (log : DiagnosticLog α) : Nat := log.entries.length

def isEmpty (log : DiagnosticLog α) : Bool := log.entries.isEmpty

def take (log : DiagnosticLog α) : List (Diagnostic α) × DiagnosticLog α := (log.entries, empty)

end DiagnosticLog

/-- Lagrange values in messages have four decimals and an exponent. -/
def lagrangeText : Option Float → String
  | some lagrange => Decimal.scientificTo 4 lagrange
  | none => ""

def Diagnostic.message (entry : Diagnostic Float) : String :=
  let lagrange := lagrangeText entry.lagrange
  match entry.detail with
  | .unpenalizedRidge =>
      "unpenalized groups have a nonzero elastic-net parameter; " ++
        "their ridge term is not scaled by the Lagrange value"
  | .expansion groups => s!"KKT added {groups} group(s) at lagrange {lagrange}"
  | .tightening groups tolerance =>
      s!"{groups} candidate group(s) fail KKT at lagrange {lagrange}; tolerance tightened to " ++
        Decimal.scientific tolerance
  | .relaxation tolerance maxIterations =>
      s!"solver did not converge at lagrange {lagrange}; retrying with tolerance " ++
        Decimal.scientific tolerance ++ s!" and {maxIterations} iterations"
  | .skip => s!"solver did not converge at lagrange {lagrange}; keeping previous solution"
  | .text message => message

end GroupLasso
