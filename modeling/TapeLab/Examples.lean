import TapeLab.Fault
import TapeLab.Source

/-!
# Bundled machines

Machines that come with the laboratory and can be called by name.
-/

namespace TapeLab.Examples

/-- Lines as a text, each with its end. -/
def unlines (lines : List String) : String :=
  String.join (lines.map fun line => line ++ "\n")

/-- Adds one to the binary number on the tape, in classic notation. -/
def binaryIncrement : String :=
  unlines [
    "# Binary increment",
    "Initial tape: 0001",
    "q0, 0 -> q0, 0, R",
    "q0, 1 -> q0, 1, R",
    "q0, _ -> q1, _, L",
    "q1, 0 -> q2, 1, N",
    "q1, 1 -> q1, 0, L",
    "q1, _ -> q2, 1, N",
    "q2, _, _, N # Halt"]

/-- Decides whether a word over two letters is a palindrome, in classic notation. -/
def palindrome : String :=
  unlines [
    "# Palindrome checker over \x7ba, b\x7d; halts in 'accept' or 'reject'",
    "Initial tape: abba",
    "q0, a -> q1, X, R",
    "q0, b -> q2, X, R",
    "q0, X -> accept, X, N",
    "q0, _ -> accept, _, N # empty input",
    "# carry an 'a' to the right end",
    "q1, a -> q1, a, R",
    "q1, b -> q1, b, R",
    "q1, X -> q3, X, L",
    "q1, _ -> q3, _, L",
    "# carry a 'b' to the right end",
    "q2, a -> q2, a, R",
    "q2, b -> q2, b, R",
    "q2, X -> q4, X, L",
    "q2, _ -> q4, _, L",
    "# last unmarked symbol must match",
    "q3, a -> q5, X, L",
    "q3, b -> reject, b, N",
    "q3, X -> accept, X, N",
    "q4, b -> q5, X, L",
    "q4, a -> reject, a, N",
    "q4, X -> accept, X, N",
    "# return to the leftmost unmarked symbol",
    "q5, a -> q5, a, L",
    "q5, b -> q5, b, L",
    "q5, X -> q0, X, R",
    "accept, _, _, N",
    "reject, _, _, N"]

/-- Adds one to the binary number on the tape, in structured notation. -/
def structuredIncrement : String :=
  unlines [
    "# Adds 1 to a binary number",
    "input: '1011'",
    "blank: '_'",
    "start state: right",
    "table:",
    "  # scan to the rightmost digit",
    "  right:",
    "    [0,1]: \x7bR: right\x7d",
    "    _: \x7bL: carry\x7d",
    "  # then carry the 1",
    "  carry:",
    "    1: \x7bwrite: 0, L\x7d",
    "    [0, _]: \x7bwrite: 1, N: done\x7d",
    "  done:"]

/-- The bundled machines by name, in the order in which they are offered. -/
def all : List (String × String) :=
  [("binary-increment", binaryIncrement),
   ("palindrome", palindrome),
   ("structured-increment", structuredIncrement)]

/-- The names of the bundled machines. -/
def names : List String :=
  all.map Prod.fst

/-- The source of a bundled machine. -/
def find? (name : String) : Option String :=
  (all.find? fun entry => entry.1 == name).map Prod.snd

/-- The bundled machine of a name. -/
def machine (name : String) : Except Fault Definition :=
  match find? name with
  | some source => .ok (Source.read source)
  | none => .error (.unknownExample name names)

end TapeLab.Examples
