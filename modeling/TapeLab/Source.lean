import TapeLab.Classic.Source
import TapeLab.Structured.Source

/-!
# Machine sources of either notation

A source that contains one of the markers of the structured notation is read as
structured, and every other one as classic.
-/

namespace TapeLab.Source

/-- The words that give a structured source away, wherever they stand. -/
def structuredMarkers : List String :=
  ["start state:", "table:", "input:"]

/-- Whether a text occurs in another. -/
def occursIn (piece : List Char) : List Char → Bool
  | [] => piece.isEmpty
  | c :: rest => piece.isPrefixOf (c :: rest) || occursIn piece rest

/-- The notation of a source. -/
def dialectOf (source : String) : Dialect :=
  if structuredMarkers.any fun marker => occursIn marker.toList source.toList then .structured
  else .classic

/-- The machine of a source in a given notation. -/
def readAs (dialect : Dialect) (source : String) : Definition :=
  match dialect with
  | .classic => Classic.read source
  | .structured => Structured.read source

/-- The machine of a source, in the notation given or in the one it is written in. -/
def read (source : String) (dialect : Option Dialect := none) : Definition :=
  readAs (dialect.getD (dialectOf source)) source

end TapeLab.Source
