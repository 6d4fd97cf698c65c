import LoxLexer.Diagnostic.Basic

/-!
# Reports and their listeners

A bus passes every report on to all its listeners, in the order in which they subscribed. Listeners
are never taken off, and what they do with a report is no matter to whoever reports.

* `Bus.deliverAll_append`: what is delivered for reports made one after the other is delivered one
  after the other.
-/

namespace LoxLexer

/-- A line with what was found there. -/
structure Report where
  line : Nat
  message : String
deriving DecidableEq

/-- The report of a fault in a line. -/
def Report.ofFault (line : Nat) (f : Fault) : Report :=
  ⟨line, f.text⟩

/-- The listeners, in the order in which they subscribed. -/
structure Bus (α : Type) where
  listeners : List α

namespace Bus

variable {α : Type}

/-- A bus without listeners. -/
def empty : Bus α := ⟨[]⟩

/-- The bus with one more listener. -/
def subscribe (bus : Bus α) (listener : α) : Bus α :=
  ⟨bus.listeners ++ [listener]⟩

/-- The number of listeners. -/
def size (bus : Bus α) : Nat :=
  bus.listeners.length

/-- What a report brings about: one delivery to each listener. -/
def deliver (bus : Bus α) (r : Report) : List (α × Report) :=
  bus.listeners.map fun l => (l, r)

/-- What several reports bring about, one after the other. -/
def deliverAll (bus : Bus α) (rs : List Report) : List (α × Report) :=
  rs.flatMap bus.deliver

/-- A bus described by its number of listeners. -/
def description (bus : Bus α) : String :=
  "ErrorBus \x7b listeners: " ++ toString bus.size ++ " \x7d"

theorem size_subscribe (bus : Bus α) (l : α) : (bus.subscribe l).size = bus.size + 1 := by
  simp [size, subscribe]

theorem deliverAll_append (bus : Bus α) (rs ss : List Report) :
    bus.deliverAll (rs ++ ss) = bus.deliverAll rs ++ bus.deliverAll ss :=
  List.flatMap_append

end Bus

end LoxLexer
