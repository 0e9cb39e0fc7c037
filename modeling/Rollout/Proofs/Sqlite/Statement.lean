import Rollout.Proofs.Database.Calls
import Rollout.Proofs.Sqlite.Connection
import Rollout.Sqlite.Basic

/-!
Statements and tables of the main schema. A statement that makes, drops or fills other tables and
views leaves a table as it is, as do reading and loading rows elsewhere.
-/

namespace Rollout.Sqlite

/-- Does the object stand in the main schema, under the given name? -/
def ObjectName.isMain (object : ObjectName) (name : String) : Bool :=
  Identifier.same object.schemaName mainSchema && Identifier.same object.name.value name

/-- Does the statement keep to the transaction that it finds, and change no table or view of the
main schema with the given name? -/
def Statement.spares (name : String) : Statement → Bool
  | createTable _ object _ | createView object _ | dropTable object | dropView object
  | insert object _ _ => !object.isMain name
  | select _ _ => true
  | begin | commit | rollback => false

/-- The statements of a text that are read before the first fault. -/
def Parser.statements : Nat → List Token → List Statement
  | 0, _ => []
  | turns + 1, tokens =>
      match next tokens with
      | .ok (some (statement, rest)) => statement :: statements turns rest
      | .ok none | .error _ => []

def statementsOf (sql : String) : List Statement :=
  let tokens := Token.ofText sql
  Parser.statements tokens.length tokens

namespace State

/-- The second state follows within the same transaction, and the name means the same to the
connection. -/
structure Spares (name : String) (before after : State) : Prop extends Within before after where
  agree : Contents.Agree name before.visible after.visible

namespace Spares

variable {name : String} {first second third : State}

theorem of_visible
    (within : Within first second ∧ second.visible = first.visible) : Spares name first second :=
  ⟨within.1, by rw [within.2]; exact .refl _⟩

theorem refl (alone : first.Alone) : Spares name first first := of_visible ⟨.refl alone, rfl⟩

theorem trans (start : Spares name first second) (rest : Spares name second third) :
    Spares name first third :=
  ⟨start.toWithin.trans rest.toWithin, start.agree.trans rest.agree⟩

end Spares

variable {state : State} {name : String}

theorem noteRead_spares (alone : state.Alone) (schema : String) :
    Spares name state (state.noteRead schema) :=
  .of_visible (noteRead_within alone schema)

theorem changeFile_spares {change : Contents → Except Fault Contents} (alone : state.Alone)
    (spared : ∀ contents after, change contents = .ok after → Contents.Agree name contents after) :
    Spares name state (state.changeFile change).2 := by
  cases changed : change state.visible with
  | error fault =>
      obtain ⟨after, ended, within⟩ := changeFile_error change alone changed
      rw [ended]
      exact .of_visible within
  | ok contents =>
      obtain ⟨after, ended, within, visible⟩ := changeFile_ok change alone changed
      rw [ended]
      exact ⟨within, by rw [visible]; exact spared _ _ changed⟩

theorem change_spares {change : Contents → Except Fault Contents} {schema : String}
    (alone : state.Alone)
    (spared : Identifier.same schema mainSchema = true →
      ∀ contents after, change contents = .ok after → Contents.Agree name contents after) :
    Spares name state (state.change schema change).2 := by
  unfold State.change
  split <;> rename_i main
  · exact changeFile_spares alone (spared main)
  · split
    · exact .refl alone
    · exact .of_visible (setOwnSchema_within alone schema _)

theorem changeBy_spares {α : Type} {schema : String} {found : Except Fault α}
    {change : α → Contents → Except Fault Contents} (alone : state.Alone)
    (spared : Identifier.same schema mainSchema = true → ∀ value, found = .ok value →
      ∀ contents after, change value contents = .ok after → Contents.Agree name contents after) :
    Spares name state (state.changeBy schema found change).2 := by
  unfold changeBy
  split
  · exact .refl alone
  · exact change_spares alone fun main => spared main _ rfl

/-- An object of the main schema that does not stand under a name is called otherwise. -/
theorem other_of_main {object : ObjectName} (other : object.isMain name = false)
    (main : Identifier.same object.schemaName mainSchema = true) :
    Identifier.same object.name.value name = false := by
  simpa [ObjectName.isMain, main] using other

theorem tableOf_name {table : Table} {body : TableBody}
    (made : Contents.tableOf name body = .ok table) : table.name = name := by
  unfold Contents.tableOf at made
  dsimp only at made
  split at made
  · cases made
  · obtain ⟨references, -, made⟩ := Outcome.bind_eq_ok.mp made
    obtain rfl := Except.ok.inj made
    rfl

theorem createTable_spares (ifMissing : Bool) {object : ObjectName} (body : Except Fault TableBody)
    (alone : state.Alone) (other : object.isMain name = false) :
    Spares name state (state.createTable ifMissing object body).2 := by
  unfold createTable
  dsimp only
  split
  · exact noteRead_spares alone _
  · refine changeBy_spares alone ?_
    intro main table found contents after added
    obtain rfl := Except.ok.inj added
    refine Contents.addTable_agree ?_
    have named : table.name = object.name.value := by
      obtain ⟨held, -, found⟩ := Outcome.bind_eq_ok.mp found
      obtain ⟨-, -, found⟩ := Outcome.bind_eq_ok.mp found
      obtain ⟨described, -, found⟩ := Outcome.bind_eq_ok.mp found
      exact tableOf_name found
    rw [named]
    exact other_of_main other main

theorem createView_spares {object : ObjectName} {results : List Result} (alone : state.Alone)
    (other : object.isMain name = false) :
    Spares name state (state.createView object results).2 := by
  refine changeBy_spares alone ?_
  intro main _ _ contents after added
  obtain rfl := Except.ok.inj added
  exact Contents.addView_agree (other_of_main other main)

theorem dropTable_spares {object : ObjectName} (alone : state.Alone)
    (other : object.isMain name = false) : Spares name state (state.dropTable object).2 := by
  refine changeBy_spares alone ?_
  intro main table found contents after dropped
  refine Contents.dropTable_agree dropped ?_
  obtain ⟨held, -, found⟩ := Outcome.bind_eq_ok.mp found
  exact Identifier.same_false_of_same (Contents.dropped_same found) (other_of_main other main)

theorem dropView_spares {object : ObjectName} (alone : state.Alone)
    (other : object.isMain name = false) : Spares name state (state.dropView object).2 := by
  refine changeBy_spares alone ?_
  intro main view found contents after dropped
  obtain rfl := Except.ok.inj dropped
  refine Contents.dropView_agree ?_
  obtain ⟨held, -, found⟩ := Outcome.bind_eq_ok.mp found
  exact Identifier.same_false_of_same (Contents.droppedView_same found) (other_of_main other main)

theorem prepareInsert_same {object : ObjectName} {columns : Option (List String)} {width : Nat}
    {insertion : Contents.Insertion}
    (prepared : state.prepareInsert object columns width = .ok insertion) :
    Identifier.same insertion.table object.name.value = true := by
  obtain ⟨contents, -, prepared⟩ := Outcome.bind_eq_ok.mp prepared
  exact Contents.prepare_same prepared

theorem insertRow_spares {object : ObjectName} {columns : Option (List String)} {width : Nat}
    {insertion : Contents.Insertion} (values : List Value) {earlier : State}
    (prepared : earlier.prepareInsert object columns width = .ok insertion)
    (alone : state.Alone) (other : object.isMain name = false) :
    Spares name state (state.insertRow object.schemaName insertion values).2 := by
  refine change_spares alone ?_
  intro main contents after inserted
  exact Contents.insert_agree inserted (Identifier.same_false_of_same
    (prepareInsert_same prepared) (other_of_main other main))

theorem insert_spares {object : ObjectName} {columns : Option (List String)}
    {rows : List (List Value)} (alone : state.Alone) (other : object.isMain name = false) :
    Spares name state (state.insert object columns rows).2 := by
  refine changeBy_spares alone ?_
  intro main insertion prepared contents after inserted
  exact Contents.insertAll_agree inserted (Identifier.same_false_of_same
    (prepareInsert_same prepared) (other_of_main other main))

theorem select_spares {results : List Result} {source : Option (ObjectName × Option Named)}
    (alone : state.Alone) : Spares name state (state.select results source).2 := by
  unfold State.select
  split
  · exact .refl alone
  · split
    · exact .refl alone
    · exact noteRead_spares alone _

theorem execute_spares {statement : Statement} (alone : state.Alone)
    (other : statement.spares name = true) : Spares name state (state.execute statement).2 := by
  have elsewhere {object : ObjectName} (spared : (!object.isMain name) = true) :
      object.isMain name = false := by simpa using spared
  cases statement with
  | createTable ifMissing object body =>
      exact createTable_spares ifMissing body alone (elsewhere other)
  | createView object results => exact createView_spares alone (elsewhere other)
  | dropTable object => exact dropTable_spares alone (elsewhere other)
  | dropView object => exact dropView_spares alone (elsewhere other)
  | insert object columns rows => exact insert_spares alone (elsewhere other)
  | select results source => exact select_spares alone
  | begin => cases other
  | commit => cases other
  | rollback => cases other

theorem executeAll_spares {turns : Nat} {tokens : List Token} (alone : state.Alone)
    (others : ∀ statement ∈ Parser.statements turns tokens, statement.spares name = true) :
    Spares name state (executeAll turns tokens state).2 := by
  induction turns generalizing tokens state with
  | zero => exact .refl alone
  | succ turns ih =>
      unfold executeAll
      split <;> rename_i found
      · exact .refl alone
      · exact .refl alone
      · rename_i statement rest
        rw [Parser.statements, found] at others
        have first := execute_spares alone (others statement List.mem_cons_self)
        split <;> rename_i executed <;> rw [executed] at first
        · exact first
        · exact first.trans (ih first.alone fun later member =>
            others later (List.mem_cons_of_mem _ member))

theorem exec_spares {sql : String} (alone : state.Alone)
    (others : ∀ statement ∈ statementsOf sql, statement.spares name = true) :
    Spares name state (state.exec sql).2 := by
  unfold exec
  split
  · exact .refl alone
  · exact executeAll_spares alone others

theorem loadRecord_spares {loading : Loading} (count : Nat) (fields : List String)
    (alone : state.Alone) (other : loading.target.isMain name = false) :
    Spares name state (state.loadRecord loading count fields).2 := by
  unfold loadRecord
  split
  · exact .refl alone
  · rename_i prepared
    have stored := insertRow_spares (fields.map fieldValue) prepared alone other
    split <;> rename_i inserted <;> rw [inserted] at stored <;> exact stored

theorem loadRecords_spares {loading : Loading} {number count : Nat} {records : List Csv.Record}
    (alone : state.Alone) (other : loading.target.isMain name = false) :
    Spares name state (loadRecords loading number count records state).2 := by
  induction records generalizing number count state with
  | nil => exact .refl alone
  | cons record rest ih =>
      unfold loadRecords
      split
      · exact .refl alone
      · rename_i fields _
        have first := loadRecord_spares count fields alone other
        split <;> rename_i loaded <;> rw [loaded] at first
        · exact first
        · exact first.trans (ih first.alone)

theorem loadWithHeader_spares {path : String} {target : ObjectName} {records : List Csv.Record}
    (alone : state.Alone) (other : target.isMain name = false) :
    Spares name state (state.loadWithHeader path target records).2 := by
  unfold loadWithHeader
  split
  · exact .refl alone
  · dsimp only
    split
    · exact .refl alone
    · split
      · exact .refl alone
      · refine loadRecords_spares alone ?_
        exact other

theorem loadCsv_spares {path schema table : String} {found : Except FileFault Content}
    {options : CsvOptions} (alone : state.Alone)
    (other : (ObjectName.ofNames schema table).isMain name = false) :
    Spares name state (state.loadCsv path found schema table options).2 := by
  unfold State.loadCsv
  dsimp only
  split
  · exact .refl alone
  · split
    · exact .refl alone
    · exact .refl alone
    · exact .refl alone
    · split
      · exact loadWithHeader_spares alone other
      · refine loadRecords_spares alone ?_
        exact other

theorem keep_spares {object : ObjectName} {body : TableBody} {columns : List String}
    {values : List Value} (alone : state.Alone) (other : object.isMain name = false) :
    Spares name state (state.keep object body columns values).2 := by
  have made := createTable_spares true (.ok body) alone other
  unfold keep
  split <;> rename_i created <;> rw [created] at made
  · exact made
  · split
    · exact made
    · rename_i prepared
      exact made.trans (insertRow_spares values prepared made.alone other)

theorem recordAudit_spares {entry : AuditEntry} (alone : state.Alone)
    (other : logObject.isMain name = false) : Spares name state (state.recordAudit entry).2 := by
  unfold recordAudit
  split
  · exact .refl alone
  · exact keep_spares alone other

theorem schemaItems_spares {schema : String} {kind : Option ItemKind} (alone : state.Alone) :
    Spares name state (state.schemaItems schema kind).2 := by
  unfold State.schemaItems
  repeat' split
  all_goals first | exact .refl alone | exact noteRead_spares alone schema

theorem referencesOf_spares {schemas : List String} (alone : state.Alone) :
    Spares name state (referencesOf schemas state).2 := by
  induction schemas generalizing state with
  | nil => exact .refl alone
  | cons schema rest ih =>
      unfold referencesOf
      split
      · exact .refl alone
      · have noted : Spares name state (state.noteRead schema) := noteRead_spares alone schema
        exact noted.trans (ih noted.alone)

theorem foreignKeys_spares (alone : state.Alone) : Spares name state state.foreignKeys.2 := by
  unfold State.foreignKeys
  split
  · exact .refl alone
  · exact referencesOf_spares alone

theorem schemaNames_spares (alone : state.Alone) : Spares name state state.schemaNames.2 := by
  unfold State.schemaNames
  split <;> exact .refl alone

end State

/-- Do the statements of a call keep to the transaction, and does it change no table or view of the
main schema with the given name? The program's own tables are not meant. -/
def sparesTable (name : String) : Database.Call → Bool
  | .exec sql => (statementsOf sql).all (Statement.spares name)
  | .loadCsv _ schema table _ => !(ObjectName.ofNames schema table).isMain name
  | _ => true

theorem perform_spares {state : State} {name : String} {call : Database.Call} (alone : state.Alone)
    (audit : logObject.isMain name = false) (data : call.isData = true)
    (spared : sparesTable name call = true) :
    State.Spares name state (State.perform call state).2 := by
  cases call with
  | exec sql => exact State.exec_spares alone (by simpa [sparesTable] using spared)
  | loadCsv file schema table options =>
      exact State.loadCsv_spares alone (by simpa [sparesTable] using spared)
  | schemaNames => exact State.schemaNames_spares alone
  | foreignKeys => exact State.foreignKeys_spares alone
  | schemaItems schema kind => exact State.schemaItems_spares alone
  | currentUser => exact .refl alone
  | recordAudit entry => exact State.recordAudit_spares alone audit
  | lock | unlock | begin | commit | rollback | close => cases data

end Rollout.Sqlite
