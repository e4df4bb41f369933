import TapeLab.Text.Blank
import TapeLab.Text.Numeral

/-!
# Command lines

The words after a program's name, read as options.  Options begin with two dashes,
may be cut short as long as only one option begins that way, and take their value
from after an equals sign or from the next word.  Two dashes after an equals sign are
no value: the option is then given without one.  Every program also knows `--help` and
`-h`.

All words are classified before any is used, so an option that is cut too short is
misuse wherever it stands; after that the first word that decides is the one that
counts.
-/

namespace TapeLab.CommandLine

/-- What an option takes with it. -/
inductive Takes where
  | nothing
  | text
  | wholeNumber
  | oneOf (choices : List String)
  deriving DecidableEq, Repr

/-- An option that a program knows. -/
structure Parameter where
  name : String
  takes : Takes
  required : Bool := false
  deriving DecidableEq, Repr

/-- What was given with an option.  An option that takes a value may still be given
without one. -/
inductive Given where
  | nothing
  | text (value : String)
  | number (value : Int)
  deriving DecidableEq, Repr

/-- Why a program ends before it begins. -/
inductive Stop where
  | helpWanted
  | misused
  deriving DecidableEq, Repr

/-- The exit code of a program that ended before it began. -/
def Stop.code : Stop → Nat
  | .helpWanted => 0
  | .misused => 2

/-- The parameter for help. -/
def help : Parameter where
  name := "--help"
  takes := .nothing

/-- The short way to ask for help. -/
def shortHelp : String := "-h"

/-- What a word is.  A value may be attached to an option by an equals sign; letters may
follow the short option at once or after an equals sign. -/
inductive Word where
  | plain (text : String)
  | option (parameter : Parameter) (attached : Option String)
  | shortOption (letters : List Char)
  | unknown
  deriving DecidableEq, Repr

/-- A word that is a number below zero, which is a value and no option. -/
def isNegativeNumber (word : List Char) : Bool :=
  let isDigit := fun c => (Text.decimalValue? c).isSome
  let body := word.drop 1
  let ended := if body.getLast? == some '\n' then body.dropLast else body
  let fraction := (ended.dropWhile isDigit).drop 1
  let whole := !ended.isEmpty && ended.all isDigit
  let broken := (ended.dropWhile isDigit).head? == some '.' && !fraction.isEmpty &&
    fraction.all isDigit
  word.head? == some '-' && (whole || broken)

/-- A word cut at its first equals sign. -/
def cutAtEquals (word : List Char) : List Char × Option String :=
  let name := word.takeWhile (· != '=')
  match word.drop name.length with
  | [] => (name, none)
  | _ :: value => (name, some (String.ofList value))

/-- The options whose names begin with a word. -/
def begunBy (parameters : List Parameter) (start : List Char) : List Parameter :=
  (help :: parameters).filter fun parameter => start.isPrefixOf parameter.name.toList

/-- The option of exactly a name. -/
def named? (parameters : List Parameter) (name : List Char) : Option Parameter :=
  (help :: parameters).find? fun parameter => parameter.name.toList == name

/-- What a word with two dashes in front is. -/
def classifyLong (parameters : List Parameter) (word : List Char) : Except Stop Word :=
  let (name, attached) := cutAtEquals word
  match named? parameters name with
  | some parameter => .ok (.option parameter attached)
  | none =>
    match begunBy parameters name with
    | [] => .ok (if word.contains ' ' then .plain (String.ofList word) else .unknown)
    | [parameter] => .ok (.option parameter attached)
    | _ => .error .misused

/-- What a word with one dash in front is. -/
def classifyShort (word : List Char) : Word :=
  if word == shortHelp.toList then .option help none
  else if shortHelp.toList.isPrefixOf word then
    let letters := word.drop shortHelp.length
    .shortOption (if letters.head? == some '=' then letters.tail else letters)
  else if isNegativeNumber word || word.contains ' ' then .plain (String.ofList word)
  else .unknown

/-- What a word is. -/
def classify (parameters : List Parameter) (text : String) : Except Stop Word :=
  let word := text.toList
  if word.head? != some '-' || word.length == 1 then .ok (.plain text)
  else if word.take 2 == ['-', '-'] then classifyLong parameters word
  else .ok (classifyShort word)

/-- What all words are.  Two dashes alone end the options. -/
def classifyAll (parameters : List Parameter) : List String → Except Stop (List Word)
  | [] => .ok []
  | text :: rest =>
    if text == "--" then .ok (.unknown :: rest.map .plain)
    else do return (← classify parameters text) :: (← classifyAll parameters rest)

/-- What letters after the short option come to: a request for help, made once more by
each of them, if there is nothing else among them. -/
def shortLetters (letters : List Char) : Stop :=
  if !letters.isEmpty && letters.all (· == 'h') then .helpWanted else .misused

/-- A value of the kind that an option takes. -/
def readValue (takes : Takes) (text : String) : Except Stop Given :=
  match takes with
  | .nothing => .error .misused
  | .text => .ok (.text text)
  | .wholeNumber =>
    match Text.integer? text.toList with
    | some value => .ok (.number value)
    | none => .error .misused
  | .oneOf choices => if choices.contains text then .ok (.text text) else .error .misused

/-- What is given by a text attached to an option. -/
def readAttached (takes : Takes) (text : String) : Except Stop Given :=
  if text == "--" && takes != .nothing then .ok .nothing else readValue takes text

/-- The options given, in order, and whether any word was not used. -/
structure Reading where
  given : List (String × Given) := []
  surplus : Bool := false
  deriving DecidableEq, Repr

/-- Use words one after another. -/
def useWords (reading : Reading) : List Word → Except Stop Reading
  | [] => .ok reading
  | .plain _ :: rest => useWords { reading with surplus := true } rest
  | .unknown :: rest => useWords { reading with surplus := true } rest
  | .shortOption letters :: _ => .error (shortLetters letters)
  | .option parameter (some value) :: rest => do
    let given ← readAttached parameter.takes value
    useWords { reading with given := reading.given ++ [(parameter.name, given)] } rest
  | .option parameter none :: rest =>
    if parameter == help then .error .helpWanted
    else if parameter.takes == .nothing then
      useWords { reading with given := reading.given ++ [(parameter.name, .nothing)] } rest
    else
      match rest with
      | .plain value :: later => do
        let given ← readValue parameter.takes value
        useWords { reading with given := reading.given ++ [(parameter.name, given)] } later
      | _ => .error .misused

/-- The options that a command line gives. -/
abbrev Options := List (String × Given)

namespace Options

/-- What was given last with an option. -/
def last? (options : Options) (name : String) : Option Given :=
  (options.reverse.find? fun option => option.1 == name).map Prod.snd

/-- Whether an option was given. -/
def has (options : Options) (name : String) : Bool :=
  (last? options name).isSome

/-- The text given with an option, as far as there is any. -/
def nonemptyText? (options : Options) (name : String) : Option String :=
  match last? options name with
  | some (.text value) => if value.isEmpty then none else some value
  | _ => none

/-- The text given with an option, or one assumed for an option that was not given;
none for an option without its value. -/
def textOr (options : Options) (name assumed : String) : Option String :=
  match last? options name with
  | none => some assumed
  | some (.text value) => some value
  | some _ => none

/-- The number given with an option, or one assumed for an option that was not given;
none for an option without its value. -/
def numberOr (options : Options) (name : String) (assumed : Int) : Option Int :=
  match last? options name with
  | none => some assumed
  | some (.number value) => some value
  | some _ => none

end Options

/-- The options of a command line. -/
def read (parameters : List Parameter) (words : List String) : Except Stop Options := do
  let reading ← useWords {} (← classifyAll parameters words)
  let complete := parameters.all fun parameter =>
    !parameter.required || Options.has reading.given parameter.name
  if reading.surplus || !complete then throw .misused
  return reading.given

end TapeLab.CommandLine
