import LoxLexer.Session

/-!
# Scans with listeners

A scan can have a reporter, which is a bus. The bus is told of every fault at the moment at which the
fault is met: the diagnostic is made, its line and wording go to the listeners, and then the diagnostic
is kept. The scan goes on whatever the listeners do with it.

A bus outlives the scans that it serves. Listeners are added to it at any time, and reports can be made
on it by hand.

* `Session.scanWith`, `Session.answersWith`: a scan and a whole session, with or without a reporter.
* `Bus.performAll`: what comes of operations on a bus.
-/

namespace LoxLexer

variable {α : Type}

/-- What a report brings about: nothing where there is no bus. -/
def notify (reporter : Option (Bus α)) (r : Report) : List (α × Report) :=
  match reporter with
  | none => []
  | some bus => bus.deliver r

/-! ## §1 Scans -/

/-- What a scan has brought about so far. -/
structure Findings (α : Type) where
  tokens : List Token
  diagnostics : List Diagnostic
  /-- What listeners have been told. -/
  deliveries : List (α × Report)

/-- What a scan has brought about after one more span. -/
def Findings.add (reporter : Option (Bus α)) (f : Findings α) (p : PlacedSpan) : Findings α :=
  match p.span.outcome with
  | .token kind literal =>
    { f with tokens := f.tokens ++ [⟨kind, String.ofList p.span.text, literal, p.line⟩] }
  | .fault fault =>
    -- the report has the wording of the diagnostic, and comes before it is kept
    let d := Diagnostic.ofFault p.line fault
    let deliveries := f.deliveries ++ notify reporter ⟨p.line, d.message⟩
    { f with deliveries := deliveries, diagnostics := f.diagnostics ++ [d] }
  | .skipped => f

namespace Session

/-- Read all that is unread: the tokens, what listeners are told meanwhile, and the session
afterwards. -/
def scanWith (reporter : Option (Bus α)) (s : Session) :
    List Token × List (α × Report) × Session :=
  let f := (placedSpans s.line s.unread).foldl (Findings.add reporter) ⟨[], s.pending, []⟩
  (f.tokens, f.deliveries, ⟨[], lineAfter s.line (spans s.unread), f.diagnostics⟩)

/-- Carry out a request: the answer, what listeners are told meanwhile, and the session afterwards. -/
def answerWith (reporter : Option (Bus α)) (s : Session) :
    Request → Answer × List (α × Report) × Session
  | .scan => (.tokens (s.scanWith reporter).1, (s.scanWith reporter).2)
  | .look => (.diagnostics s.pending, [], s)
  | .take => (.diagnostics s.take.1, [], s.take.2)
  | .state => (.nothing, [], s)

/-- Carry out requests one after the other. -/
def answersWith (reporter : Option (Bus α)) (s : Session) :
    List Request → List (Answer × List (α × Report) × Session)
  | [] => []
  | r :: rs => s.answerWith reporter r :: (s.answerWith reporter r).2.2.answersWith reporter rs

end Session

/-! ## §2 Buses -/

namespace Bus

/-- One thing that is done with a bus. -/
inductive Operation (α : Type) where
  | subscribe (listener : α)
  | report (r : Report)
  /-- A scan of a source with the bus as its reporter. -/
  | scan (source : String)
deriving DecidableEq

/-- What comes of an operation. -/
structure Effect (α : Type) where
  /-- The bus afterwards. -/
  bus : Bus α
  deliveries : List (α × Report)
  /-- The tokens and the diagnostics that a scan returns. -/
  scanned : Option (List Token × List Diagnostic)

/-- Carry out an operation. -/
def perform (bus : Bus α) : Operation α → Effect α
  | .subscribe listener => ⟨bus.subscribe listener, [], none⟩
  | .report r => ⟨bus, bus.deliver r, none⟩
  | .scan source =>
    let scan := (Session.start source).scanWith (some bus)
    ⟨bus, scan.2.1, some (scan.1, scan.2.2.pending)⟩

/-- Carry out operations one after the other. -/
def performAll (bus : Bus α) : List (Operation α) → List (Effect α)
  | [] => []
  | op :: ops => bus.perform op :: (bus.perform op).bus.performAll ops

end Bus

end LoxLexer
