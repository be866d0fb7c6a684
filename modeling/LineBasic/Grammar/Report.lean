import LineBasic.Grammar.Predict
import LineBasic.Text.Quoted

/-!
# The report on a grammar

The FIRST, FOLLOW and PREDICT sets of a grammar as a text of several lines, with
the answer to whether it is LL(1) in the last one.
-/

namespace LineBasic

/-- The refusal in words: only the symbol, in quotation marks. -/
def UnknownStart.message (e : UnknownStart) : String :=
  Text.quote e.start

namespace Grammar

/-- A name with spaces after it up to a given width. -/
def padded (width : Nat) (name : Symbol) : String :=
  name ++ String.ofList (List.replicate (width - name.length) ' ')

/-- The right-hand side of a production as shown; an empty one is shown as `ε`. -/
def displayProduction (production : Production) : String :=
  let text := " ".intercalate production
  if text = "" then epsilon else text

/-- One line of a table of sets. -/
def setLine (width : Nat) (entry : Symbol × SymbolSet) : String :=
  s!"  {padded width entry.1}  {entry.2.display}"

/-- The lines for the productions of a nonterminal. -/
def predictLines (entry : Symbol × List (Production × SymbolSet)) : List String :=
  entry.2.map fun row => s!"  {entry.1} -> {displayProduction row.1}  {row.2.display}"

/-- The lines of the report. -/
def reportLines (g : Grammar) (start : Symbol) : List String :=
  let width := (g.nonterminals.map String.length).foldl max 0
  ["FIRST"] ++ g.first.map (setLine width) ++
    ["FOLLOW"] ++ (g.follow start).map (setLine width) ++
    ["PREDICT"] ++ (g.predict start).flatMap predictLines ++
    [if g.isLL1 start then "LL(1): yes" else "LL(1): no"]

/-- The report, without a break after its last line. -/
def report (g : Grammar) (start : Symbol) : String :=
  "\n".intercalate (g.reportLines start)

end Grammar

end LineBasic
