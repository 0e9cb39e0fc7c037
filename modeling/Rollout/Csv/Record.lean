import Rollout.Text.Utf8

/-!
Records of comma-separated values. Fields end at a delimiter, records at a line end, a carriage
return, or both together; empty lines are no records. A field that begins with a quote goes on to
the next single quote, through delimiters and line ends, and what stands behind that quote still
belongs to it.
-/

namespace Rollout.Csv

/-- A place among the bytes that are read: bytes from 0, lines from 1. -/
structure Place where
  line : Nat := 1
  byte : Nat := 0
deriving DecidableEq, Repr

def lineFeed : UInt8 := 10
def carriageReturn : UInt8 := 13
def quote : UInt8 := 34

def isLineEnd (byte : UInt8) : Bool := byte == lineFeed || byte == carriageReturn

def Place.advance (place : Place) (byte : UInt8) : Place where
  line := if byte = lineFeed then place.line + 1 else place.line
  byte := place.byte + 1

/-- Fields as they are written, and where the bytes begin that the record is read from. -/
structure Record where
  place : Place
  fields : List (List UInt8)
deriving DecidableEq, Repr

inductive Mode where
  /-- Before a record. -/
  | fresh
  /-- Before a field. -/
  | fieldStart
  | plain
  | quoted
  /-- Behind a quote within a quoted field: its end, or the first of two quotes for one. -/
  | quoteSeen
deriving DecidableEq, Repr

inductive Effect where
  | nothing
  /-- The byte belongs to the field. -/
  | keep
  | endField
  | endRecord
deriving DecidableEq, Repr

def plainByte (delimiter byte : UInt8) : Mode × Effect :=
  if byte = delimiter then (.fieldStart, .endField)
  else if isLineEnd byte then (.fresh, .endRecord)
  else (.plain, .keep)

def fieldByte (delimiter byte : UInt8) : Mode × Effect :=
  if byte = quote then (.quoted, .nothing) else plainByte delimiter byte

def step (delimiter : UInt8) (mode : Mode) (byte : UInt8) : Mode × Effect :=
  match mode with
  | .fresh => if isLineEnd byte then (.fresh, .nothing) else fieldByte delimiter byte
  | .fieldStart => fieldByte delimiter byte
  | .plain => plainByte delimiter byte
  | .quoted => if byte = quote then (.quoteSeen, .nothing) else (.quoted, .keep)
  | .quoteSeen => if byte = quote then (.quoted, .keep) else plainByte delimiter byte

/-- What has been read of a record: its complete fields and the bytes of the one after them, both
with the latest first. -/
structure Started where
  place : Place
  fields : List (List UInt8) := []
  field : List UInt8 := []

def Started.record (started : Started) : Record where
  place := started.place
  fields := (started.field.reverse :: started.fields).reverse

/-- The records of the rest, where a record has been started. -/
def recordsFrom (delimiter : UInt8) :
    Mode → (here : Place) → Started → List UInt8 → List Record
  | mode, _, started, [] => if mode = .fresh then [] else [started.record]
  | mode, here, started, byte :: rest =>
      let here := here.advance byte
      match step delimiter mode byte with
      | (mode, .nothing) => recordsFrom delimiter mode here started rest
      | (mode, .keep) =>
          recordsFrom delimiter mode here { started with field := byte :: started.field } rest
      | (mode, .endField) =>
          recordsFrom delimiter mode here
            { started with fields := started.field.reverse :: started.fields, field := [] } rest
      | (mode, .endRecord) =>
          started.record :: recordsFrom delimiter mode here { place := here } rest

/-- The records of the bytes; a byte order mark at their beginning is passed over. -/
def records (delimiter : UInt8) : List UInt8 → List Record
  | 0xEF :: 0xBB :: 0xBF :: rest =>
      recordsFrom delimiter .fresh { byte := 3 } { place := {} } rest
  | bytes => recordsFrom delimiter .fresh {} { place := {} } bytes

/-- Why records could not be read. Records count from 0, the header included. -/
inductive Fault where
  | unequalWidths (record : Nat) (place : Place) (found expected : Nat)
  /-- A field is no text; so many bytes of it are. -/
  | invalidText (record : Nat) (place : Place) (field valid : Nat)
deriving DecidableEq, Repr

def Fault.message : Fault → String
  | unequalWidths record place found expected =>
      s!"CSV error: record {record} (line: {place.line}, byte: {place.byte}): " ++
        s!"found record with {found} fields, but the previous record has {expected} fields"
  | invalidText record place field valid =>
      s!"CSV parse error: record {record} (line {place.line}, field: {field}, " ++
        s!"byte: {place.byte}): invalid utf-8: invalid UTF-8 in field {field} " ++
        s!"near byte index {valid}"

/-- The texts of fields, or the number of the first that is no text and how many bytes of it
are. -/
def textsFrom (number : Nat) : List (List UInt8) → Except (Nat × Nat) (List String)
  | [] => .ok []
  | field :: rest =>
      match Text.Utf8.decode field with
      | none => .error (number, Text.Utf8.validLength field)
      | some text => (textsFrom (number + 1) rest).map (text :: ·)

/-- The texts of a record that has the given number and must have the given width. -/
def Record.texts (record : Record) (number width : Nat) : Except Fault (List String) :=
  if record.fields.length ≠ width then
    .error (.unequalWidths number record.place record.fields.length width)
  else (textsFrom 0 record.fields).mapError fun (field, valid) =>
    .invalidText number record.place field valid

end Rollout.Csv
