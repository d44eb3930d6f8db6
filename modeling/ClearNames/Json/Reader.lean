import ClearNames.Json.Basic
import ClearNames.Text.Hex

/-! Reading JSON.

Values are read from the front with the rest of the text returned. Of two
fields of one name the later value counts, at the place of the earlier one.
The words `NaN`, `Infinity` and `-Infinity` are read as numbers.
-/

set_option autoImplicit false

namespace ClearNames.Json

inductive ReadFault where
  | malformed
  /-- A whole number with more digits than are read. -/
  | numberTooLong
  deriving DecidableEq, Repr

def isSpace (char : Char) : Bool := char == ' ' || char == '\t' || char == '\n' || char == '\r'

def skipSpace (text : List Char) : List Char := text.dropWhile isSpace

def isHighSurrogate (unit : Nat) : Bool := 0xD800 ≤ unit && unit < 0xDC00

def isLowSurrogate (unit : Nat) : Bool := 0xDC00 ≤ unit && unit < 0xE000

def ofSurrogates (high low : Nat) : Nat := 0x10000 + (high - 0xD800) * 0x400 + (low - 0xDC00)

def simpleEscape? : Char → Option Char
  | '"' => some '"'
  | '\\' => some '\\'
  | '/' => some '/'
  | 'b' => some '\x08'
  | 'f' => some '\x0c'
  | 'n' => some '\n'
  | 'r' => some '\r'
  | 't' => some '\t'
  | _ => none

/-- Codes read, the latest first, with a first surrogate that may still be
followed by a second one. -/
structure StringSoFar where
  done : List Nat
  high : Option Nat

namespace StringSoFar

def codes (soFar : StringSoFar) : List Nat :=
  match soFar.high with
  | some unit => unit :: soFar.done
  | none => soFar.done

def addCode (soFar : StringSoFar) (code : Nat) : StringSoFar := ⟨code :: soFar.codes, none⟩

def addUnit (soFar : StringSoFar) (unit : Nat) : StringSoFar :=
  match soFar.high with
  | some high =>
    if isLowSurrogate unit then ⟨ofSurrogates high unit :: soFar.done, none⟩
    else if isHighSurrogate unit then ⟨soFar.codes, some unit⟩
    else soFar.addCode unit
  | none => if isHighSurrogate unit then ⟨soFar.done, some unit⟩ else soFar.addCode unit

end StringSoFar

def readString (soFar : StringSoFar) : List Char → Except ReadFault (List Nat × List Char)
  | '"' :: rest => .ok (soFar.codes.reverse, rest)
  | '\\' :: 'u' :: first :: second :: third :: fourth :: rest =>
    match Text.readHex? [first, second, third, fourth] with
    | some unit => readString (soFar.addUnit unit) rest
    | none => .error .malformed
  | '\\' :: letter :: rest =>
    match simpleEscape? letter with
    | some char => readString (soFar.addCode char.toNat) rest
    | none => .error .malformed
  | char :: rest =>
    if char.toNat < 0x20 ∨ char = '\\' then .error .malformed else readString (soFar.addCode char.toNat) rest
  | [] => .error .malformed

def isDigit (char : Char) : Bool := '0' ≤ char && char ≤ '9'

def digitsValue (digits : List Char) : Nat :=
  digits.foldl (fun total digit => 10 * total + (digit.toNat - 0x30)) 0

def takeWhole : List Char → Option (List Char × List Char)
  | '0' :: rest => some (['0'], rest)
  | char :: rest =>
    if isDigit char then some ((char :: rest).takeWhile isDigit, (char :: rest).dropWhile isDigit) else none
  | [] => none

def takeFraction (text : List Char) : Option (List Char × List Char) :=
  match text with
  | '.' :: rest =>
    match rest.takeWhile isDigit with
    | [] => none
    | digits => some (digits, rest.dropWhile isDigit)
  | _ => none

def takePower (text : List Char) : Option (Int × List Char) :=
  match text with
  | mark :: rest =>
    if mark = 'e' ∨ mark = 'E' then
      let (negative, rest) := match rest with
        | '-' :: rest => (true, rest)
        | '+' :: rest => (false, rest)
        | rest => (false, rest)
      match rest.takeWhile isDigit with
      | [] => none
      | digits =>
        let power : Int := digitsValue digits
        some (if negative then -power else power, rest.dropWhile isDigit)
    else none
  | [] => none

/-- The largest power of ten that is computed with; beyond it every number is zero or infinite. -/
def powerBound : Int := 100000

def readNumber (negative : Bool) (text : List Char) : Except ReadFault (Json × List Char) :=
  match takeWhole text with
  | none => .error .malformed
  | some (whole, rest) =>
    match takeFraction rest, takePower ((takeFraction rest).elim rest Prod.snd) with
    | none, none =>
      if Text.digitLimit < whole.length then .error .numberTooLong
      else
        let value : Int := digitsValue whole
        .ok (.int (if negative then -value else value), rest)
    | fraction, power =>
      let digits := fraction.elim [] Prod.fst
      let exponent := max (-powerBound) (min powerBound (power.elim 0 Prod.fst))
      let rest := power.elim (fraction.elim rest Prod.snd) Prod.snd
      .ok (.float (.ofDecimal negative (digitsValue (whole ++ digits)) (exponent - digits.length)), rest)

def keywords : List (List Char × Json) :=
  [("null".toList, .null), ("true".toList, .bool true), ("false".toList, .bool false),
    ("NaN".toList, .float .notANumber), ("Infinity".toList, .float (.infinite false)),
    ("-Infinity".toList, .float (.infinite true))]

def readScalar (text : List Char) : Except ReadFault (Json × List Char) :=
  match keywords.find? fun (word, _) => word.isPrefixOf text with
  | some (word, value) => .ok (value, text.drop word.length)
  | none =>
    match text with
    | '-' :: rest => readNumber true rest
    | _ => readNumber false text

mutual

def readValue : (fuel : Nat) → List Char → Except ReadFault (Json × List Char)
  | 0, _ => .error .malformed
  | _ + 1, '"' :: rest => do
    let (list, rest) ← readString ⟨[], none⟩ rest
    return (ofCodes list, rest)
  | fuel + 1, '[' :: rest =>
    match skipSpace rest with
    | ']' :: rest => .ok (.array [], rest)
    | rest => readItems fuel [] rest
  | fuel + 1, '\x7b' :: rest =>
    match skipSpace rest with
    | '\x7d' :: rest => .ok (.object [], rest)
    | rest => readFields fuel [] rest
  | _ + 1, text => readScalar text

def readItems : (fuel : Nat) → (done : List Json) → List Char → Except ReadFault (Json × List Char)
  | 0, _, _ => .error .malformed
  | fuel + 1, done, text => do
    let (item, rest) ← readValue fuel text
    match skipSpace rest with
    | ',' :: rest => readItems fuel (item :: done) (skipSpace rest)
    | ']' :: rest => return (.array (item :: done).reverse, rest)
    | _ => throw .malformed

def readFields : (fuel : Nat) → (done : OrderedTable LooseText Json) → List Char → Except ReadFault (Json × List Char)
  | 0, _, _ => .error .malformed
  | fuel + 1, done, '"' :: rest => do
    let (list, rest) ← readString ⟨[], none⟩ rest
    let name := LooseText.ofCodes list
    match skipSpace rest with
    | ':' :: rest =>
      let (value, rest) ← readValue fuel (skipSpace rest)
      match skipSpace rest with
      | ',' :: rest => readFields fuel (OrderedTable.put name value done) (skipSpace rest)
      | '\x7d' :: rest => return (.object (OrderedTable.put name value done), rest)
      | _ => throw .malformed
    | _ => throw .malformed
  | _ + 1, _, _ => .error .malformed

end

def read (text : List Char) : Except ReadFault Json := do
  let (value, rest) ← readValue (2 * text.length + 2) (skipSpace text)
  match skipSpace rest with
  | [] => return value
  | _ :: _ => throw .malformed

end ClearNames.Json
