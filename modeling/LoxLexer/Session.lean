import LoxLexer.Scan
import LoxLexer.Diagnostic.Bus

/-!
# Reading sessions

A session is a source text on its way to being read: what is still unread, the line that reading has
come to, and the diagnostics that nobody has taken yet. A scan reads all that is unread; its tokens
are handed out, its diagnostics join those that are pending, and each fault is reported as it is met.

* `Session.scan_scan`: a second scan finds nothing and changes nothing.
-/

namespace LoxLexer

/-- The reports of spans, in order. -/
def reportsOf (ps : List PlacedSpan) : List Report :=
  (faultsOf ps).map fun f => Report.ofFault f.1 f.2

/-- The reports that a scan of a source text makes. -/
def reports (source : String) : List Report :=
  reportsOf (placedSpans 1 source.toList)

/-- The state of reading a source text. -/
structure Session where
  unread : List Char
  line : Nat
  /-- The diagnostics found and not yet taken. -/
  pending : List Diagnostic

/-- What a scan hands out. -/
structure Reading where
  tokens : List Token
  reports : List Report

namespace Session

/-- A session at the start of a source text. -/
def start (source : String) : Session :=
  ⟨source.toList, 1, []⟩

/-- Whether nothing is left to read. -/
def atEnd (s : Session) : Bool :=
  s.unread.isEmpty

/-- Read all that is unread. -/
def scan (s : Session) : Reading × Session :=
  let ps := placedSpans s.line s.unread
  (⟨tokensOf ps, reportsOf ps⟩,
    ⟨[], lineAfter s.line (spans s.unread), s.pending ++ diagnosticsOf ps⟩)

/-- Take the pending diagnostics. -/
def take (s : Session) : List Diagnostic × Session :=
  (s.pending, { s with pending := [] })

/-- What can be asked of a session. -/
inductive Request where
  /-- Read all that is unread. -/
  | scan
  /-- Look at the pending diagnostics. -/
  | look
  /-- Take the pending diagnostics. -/
  | take
  /-- Look at the state alone. -/
  | state
deriving DecidableEq

/-- The answer to a request. -/
inductive Answer where
  | tokens (ts : List Token)
  | diagnostics (ds : List Diagnostic)
  | nothing
deriving DecidableEq

/-- Carry out a request: the answer, the reports made meanwhile, and the session afterwards. -/
def answer (s : Session) : Request → Answer × List Report × Session
  | .scan => (.tokens s.scan.1.tokens, s.scan.1.reports, s.scan.2)
  | .look => (.diagnostics s.pending, [], s)
  | .take => (.diagnostics s.take.1, [], s.take.2)
  | .state => (.nothing, [], s)

/-- Carry out requests one after the other, with each the answer, the reports and the session after
it. -/
def answers (s : Session) : List Request → List (Answer × List Report × Session)
  | [] => []
  | r :: rs => s.answer r :: (s.answer r).2.2.answers rs

/-! ## Small facts -/

theorem scan_start (source : String) :
    (start source).scan =
      (⟨tokens source, reports source⟩, ⟨[], lastLine source, diagnostics source⟩) := rfl

/-- A session that is read to its end stays as it is. -/
theorem scan_of_atEnd {s : Session} (h : s.unread = []) : s.scan = (⟨[], []⟩, s) := by
  cases s
  subst h
  simp [scan, placedSpans, spans, place, lineAfter, tokensOf, reportsOf, faultsOf, diagnosticsOf]

theorem scan_scan (s : Session) : s.scan.2.scan = (⟨[], []⟩, s.scan.2) :=
  scan_of_atEnd rfl

end Session

end LoxLexer
