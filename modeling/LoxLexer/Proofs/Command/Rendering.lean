import LoxLexer.Command.Run

/-!
# What a listing is

A listing as text has a line for each token: the name of its kind, its lexeme and its literal, with single
spaces between them. A listing as JSON is a list in brackets with a record for each token on lines of its
own, and a line feed after it. Both are written out here without the layouts that produce them.

* `rendering`: a listing of tokens, written out.
* `listing_eq_rendering`: what is printed is this listing.
-/

namespace LoxLexer.Command

open Json (Layout quoted)

/-! ## §1 Listings written out -/

/-- The literal of a token, with `null` where there is none. -/
def literalRendering (ofText : String → String) (ofNumber : Binary64 → String) :
    Option Literal → String
  | none => "null"
  | some (.text s) => ofText s
  | some (.number x) => ofNumber x

/-- The line of a token. The text of a string stands in it as it is. -/
def lineRendering (t : Token) : String :=
  t.kind.name ++ " " ++ t.lexeme ++ " " ++ literalRendering id NumberStyle.listing.write t.literal
    ++ "\n"

/-- The record of a token, from its opening bracket to its closing one. Names and texts are quoted. -/
def recordRendering (t : Token) : String :=
  "\x7b\n    \"kind\": " ++ quoted t.kind.name ++
    ",\n    \"lexeme\": " ++ quoted t.lexeme ++
    ",\n    \"literal\": " ++ literalRendering quoted NumberStyle.json.write t.literal ++
    ",\n    \"line\": " ++ toString t.line ++ "\n  \x7d"

/-- **A listing of tokens**: as text, their lines; as JSON, a list of their records on a line of its own, or
on several. -/
def rendering : OutputFormat → List Token → String
  | .text, ts => String.join (ts.map lineRendering)
  | .json, [] => "[]\n"
  | .json, ts => "[\n  " ++ ",\n  ".intercalate (ts.map recordRendering) ++ "\n]\n"

/-! ## §2 Listings as they are printed -/

theorem text_eq_lineRendering (t : Token) : t.text ++ "\n" = lineRendering t := by
  rw [Token.text, Token.literalText, lineRendering]
  rcases t.literal with _ | s | x <;> rfl

theorem json_eq_recordRendering (t : Token) : t.json .pretty 1 = recordRendering t := by
  have hliteral : t.literalJson = literalRendering quoted NumberStyle.json.write t.literal := by
    rw [Token.literalJson]
    rcases t.literal with _ | s | x <;> rfl
  -- what stands before each value, from the layout
  have hkind : "\x7b\n    \"kind\": " = "\x7b" ++ (Layout.newLine 2 ++ (quoted "kind" ++ ": ")) := rfl
  have hlexeme : ",\n    \"lexeme\": " = "," ++ (Layout.newLine 2 ++ (quoted "lexeme" ++ ": ")) := rfl
  have hliteralName : ",\n    \"literal\": " =
    "," ++ (Layout.newLine 2 ++ (quoted "literal" ++ ": ")) := rfl
  have hline : ",\n    \"line\": " = "," ++ (Layout.newLine 2 ++ (quoted "line" ++ ": ")) := rfl
  have hclosing : "\n  \x7d" = Layout.newLine 1 ++ "\x7d" := rfl
  unfold recordRendering
  simp only [Token.json, Layout.record, Layout.bracketed, Layout.member, List.map_cons, List.map_nil,
    String.intercalate_cons_cons, String.intercalate_singleton, hliteral, hkind, hlexeme, hliteralName,
    hline, hclosing, String.append_assoc]

/-- **What is printed is the listing.** -/
theorem listing_eq_rendering (format : OutputFormat) (ts : List Token) :
    listing format ts = rendering format ts := by
  cases format with
  | text => simp only [listing, rendering, text_eq_lineRendering]
  | json =>
    cases ts with
    | nil => rfl
    | cons t ts =>
      have hitems : (t :: ts).map (Token.json .pretty 1) = (t :: ts).map recordRendering :=
        List.map_congr_left fun u _ => json_eq_recordRendering u
      have hopening : "[\n  " = "[" ++ Layout.newLine 1 := rfl
      have hcomma : ",\n  " = "," ++ Layout.newLine 1 := rfl
      have hclosing : "\n]\n" = Layout.newLine 0 ++ ("]" ++ "\n") := rfl
      show Layout.bracketed .pretty 0 "[" "]" ((t :: ts).map (Token.json .pretty 1)) ++ "\n" =
        "[\n  " ++ ",\n  ".intercalate ((t :: ts).map recordRendering) ++ "\n]\n"
      rw [hitems, hopening, hcomma, hclosing]
      simp only [Layout.bracketed, List.map_cons, String.append_assoc]

end LoxLexer.Command
