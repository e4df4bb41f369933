import TapeLab.Machine.Basic

/-!
# Printing classic sources

Rules of any machine as classic source text: a header line, if there is one, and
one line for every rule.
-/

namespace TapeLab.Classic

/-- The header of a machine that was converted. -/
def convertedHeader : String := "# Converted from structured format"

/-- The lines of the printed rules. -/
def printedLines (rules : List Rule) (header : String) : List String :=
  (if header.isEmpty then [] else [header]) ++ rules.map Rule.describe

/-- Rules as classic source text; an empty header is left out. -/
def print (rules : List Rule) (header : String := convertedHeader) : String :=
  String.intercalate "\n" (printedLines rules header) ++ "\n"

end TapeLab.Classic
