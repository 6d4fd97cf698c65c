import LoxLexer.Scan

/-!
# Collected diagnostics

Diagnostics are collected in a list. They are added at its end, one by one or all of those of a source, and
the whole list can be given a file, or be sorted, at any time.

* `Diagnostic.perform`: the list after an operation.
-/

namespace LoxLexer.Diagnostic

/-- One thing that is done with collected diagnostics. -/
inductive Operation where
  | add (d : Diagnostic)
  /-- Add the diagnostics of a source. -/
  | scan (source : String)
  /-- Say of all diagnostics which file they are about. -/
  | setFile (file : String)
  | sort
deriving DecidableEq

/-- The diagnostics after an operation. -/
def perform (ds : List Diagnostic) : Operation → List Diagnostic
  | .add d => ds ++ [d]
  | .scan source => ds ++ diagnostics source
  | .setFile file => ds.map (withFile file)
  | .sort => sorted ds

/-- The diagnostics after operations carried out one after the other. -/
def performAll (ds : List Diagnostic) (ops : List Operation) : List Diagnostic :=
  ops.foldl perform ds

end LoxLexer.Diagnostic
