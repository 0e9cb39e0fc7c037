import Rollout.Csv.Record
import Rollout.Source.Error
import Rollout.Sqlite.Execute
import Rollout.Text.Blank

/-!
Loading rows from comma-separated values. Rows that were stored before a fault stay.
-/

namespace Rollout.Sqlite

def bytesOf : Content → List UInt8
  | .text value => value.toUTF8.toList
  | .binary bytes => bytes

def columnsOf (header : List String) : Except InvalidIdentifier (List String) :=
  header.mapM fun field =>
    let name := Text.trimmed field
    if Identifier.isValid name then .ok name else .error ⟨name⟩

/-- Empty fields are null. -/
def fieldValue (field : String) : Value := if field = "" then .null else .text field

structure Loading where
  path : String
  target : ObjectName
  /-- The columns that the header names, if there is a header. -/
  columns : Option (List String)
  /-- How many fields every record has. -/
  width : Nat

namespace State

/-- Stores the fields of one record, which is the `count`th after those stored before. -/
def loadRecord (loading : Loading) (count : Nat) (fields : List String) (state : State) :
    Except DatabaseError Unit × State :=
  match state.prepareInsert loading.target loading.columns fields.length with
  | .error fault => (.error (.statement fault.text none none), state)
  | .ok insertion =>
      match state.insertRow loading.target.schemaName insertion (fields.map fieldValue) with
      | (.ok (), state) => (.ok (), state)
      | (.error fault, state) =>
          let text := s!"{loading.path}: record {count + 1}: {fault.text}"
          (.error (.statement text none none), state)

/-- Stores records up to the first fault; the first of them has the given number. Tells how many
rows there are in all. -/
def loadRecords (loading : Loading) : (number count : Nat) → List Csv.Record → State →
    Except DatabaseError Nat × State
  | _, count, [], state => (.ok count, state)
  | number, count, record :: rest, state =>
      match record.texts number loading.width with
      | .error fault => (.error (.load fault.message), state)
      | .ok fields =>
          match state.loadRecord loading count fields with
          | (.error error, state) => (.error error, state)
          | (.ok (), state) => loadRecords loading (number + 1) (count + 1) rest state

def loadWithHeader (path : String) (target : ObjectName) (records : List Csv.Record)
    (state : State) : Except DatabaseError Nat × State :=
  match records with
  | [] => (.ok 0, state)
  | header :: rest =>
      let width := header.fields.length
      match header.texts 0 width with
      | .error fault => (.error (.load fault.message), state)
      | .ok fields =>
          match columnsOf fields with
          | .error invalid => (.error invalid.asDriver, state)
          | .ok columns =>
              state.loadRecords { path, target, columns := some columns, width } 1 0 rest

/-- Loads a file into a table, or says why the file cannot be read. A directory can be opened,
but not read. -/
def loadCsv (path : String) (found : Except FileFault Content) (schema table : String)
    (options : CsvOptions) (state : State) : Except DatabaseError Nat × State :=
  let invalid := [schema, table].find? fun name => !Identifier.isValid name
  if !state.connection.isOpen then (.error closed, state)
  else match found, invalid with
    | .error .isADirectory, some name => (.error (InvalidIdentifier.asDriver ⟨name⟩), state)
    | .error fault, _ => (.error (.load fault.message), state)
    | .ok _, some name => (.error (InvalidIdentifier.asDriver ⟨name⟩), state)
    | .ok content, none =>
        let target := ObjectName.ofNames schema table
        let records := Csv.records options.delimiter.toNat.toUInt8 (bytesOf content)
        if options.header then state.loadWithHeader path target records
        else
          let width := (records.headD ⟨{}, []⟩).fields.length
          state.loadRecords { path, target, columns := none, width } 0 0 records

end State

end Rollout.Sqlite
