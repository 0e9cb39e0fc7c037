import Rollout.Proofs.Sqlite.Schemas
import Rollout.Sqlite.Bookkeeping

/-!
What was made on a connection and not dropped since. A ledger is kept beside the calls: it notes
the calls that succeed, and nothing of the others. It tells what the schemas hold.
-/

namespace Rollout.Sqlite

open Identifier (folded)

/-- As the table has it: the column is spelled as it was made. -/
def Reference.respelled (columns : List Column) (reference : Reference) : Reference :=
  match columns.find? fun column => Identifier.same column.name reference.column with
  | some column => { reference with column := column.name }
  | none => reference

namespace Contents

theorem resolve_ok {columns : List Column} {reference found : Reference}
    (resolved : resolve columns reference = .ok found) : found = reference.respelled columns := by
  unfold resolve at resolved
  unfold Reference.respelled
  cases held : columns.find? fun column => Identifier.same column.name reference.column with
  | none =>
      rw [held] at resolved
      cases resolved
  | some column =>
      rw [held] at resolved
      exact (Except.ok.inj resolved).symm

theorem resolveAll_ok {columns : List Column} {references found : List Reference}
    (resolved : references.mapM (resolve columns) = .ok found) :
    found = references.map (Reference.respelled columns) := by
  induction references generalizing found with
  | nil =>
      obtain rfl := Except.ok.inj resolved
      rfl
  | cons reference rest ih =>
      rw [List.mapM_cons] at resolved
      obtain ⟨first, one, resolved⟩ := Outcome.bind_eq_ok.mp resolved
      obtain ⟨others, more, resolved⟩ := Outcome.bind_eq_ok.mp resolved
      obtain rfl := Except.ok.inj resolved
      rw [resolve_ok one, ih more]
      rfl

theorem tableOf_holding {name : String} {body : TableBody} {table : Table}
    (made : tableOf name body = .ok table) :
    table.holding = ⟨name, .table, body.references.map (Reference.respelled body.columns)⟩ := by
  unfold tableOf at made
  dsimp only at made
  split at made
  · cases made
  · obtain ⟨references, resolved, made⟩ := Outcome.bind_eq_ok.mp made
    obtain rfl := Except.ok.inj made
    rw [← resolveAll_ok resolved]
    rfl

end Contents

/-- Which schemas were attached, and what was made in each schema and is there still. A schema goes
by its name in lower case. -/
structure Ledger where
  attached : List String := []
  holdings : List Char → List Holding

namespace Ledger

def held (schema : String) (ledger : Ledger) : List Holding := ledger.holdings (folded schema)

def change (schema : String) (action : List Holding → List Holding) (ledger : Ledger) : Ledger :=
  { ledger with
    holdings := Function.update ledger.holdings (folded schema) (action (ledger.held schema)) }

def add (schema : String) (holding : Holding) : Ledger → Ledger :=
  change schema (Holding.add holding)

def remove (schema : String) (kind : ItemKind) (name : String) : Ledger → Ledger :=
  change schema (Holding.remove kind name)

/-- The ledger of a new connection, to a file that holds the contents. -/
def ofContents (contents : Contents) : Ledger where
  holdings := Function.update (fun _ => []) (folded mainSchema) contents.holdings

/-- The main schema and the attached ones. -/
def schemas (ledger : Ledger) : List String := mainSchema :: ledger.attached

/-- The ledger tells what the connection sees. -/
structure Reflects (ledger : Ledger) (state : State) : Prop where
  alone : state.Alone
  isOpen : state.connection.isOpen = true
  names : state.connection.schemas.map (·.1) = temporarySchema :: ledger.attached
  lasting : temporarySchema ∉ ledger.attached
  valid : ∀ schema ∈ ledger.attached, Identifier.isValid schema = true
  holdings : ∀ schema, (ledger.held schema).Perm (state.contentsAt schema).holdings
  sound : ∀ schema, Holding.Sound (ledger.held schema)

/-- After a call that succeeds the ledger has to be noted in the given way, and after one that fails
it is as before. -/
def Records {Fault : Type} (note : Ledger → Ledger) (ledger : Ledger) :
    Except Fault Unit × State → Prop
  | (.ok (), after) => Reflects (note ledger) after
  | (.error _, after) => Reflects ledger after

variable {ledger : Ledger} {state after : State} {schema : String} {contents : Contents}

theorem held_change {action : List Holding → List Holding} (other : String) :
    (ledger.change schema action).held other =
      if folded other = folded schema then action (ledger.held schema) else ledger.held other := by
  simp only [held, change, Function.update_apply]

theorem held_ofContents :
    (ofContents contents).held schema =
      if folded schema = folded mainSchema then contents.holdings else [] := by
  simp only [held, ofContents, Function.update_apply]

theorem change_eq_self {action : List Holding → List Holding}
    (same : action (ledger.held schema) = ledger.held schema) :
    ledger.change schema action = ledger := by
  rw [change, same, held, Function.update_eq_self]

theorem add_of_taken (holding : Holding)
    (taken : Holding.IsTaken holding.name (ledger.held schema)) :
    ledger.add schema holding = ledger :=
  change_eq_self (if_pos taken)

theorem Records.of_same {Fault : Type} {note other : Ledger → Ledger}
    {told : Except Fault Unit × State} (records : Records note ledger told)
    (same : other ledger = note ledger) : Records other ledger told := by
  rcases told with ⟨_ | _, after⟩
  · exact records
  · unfold Records at records ⊢
    rwa [same]

theorem Records.kept {Fault : Type} {told : Except Fault Unit × State}
    (records : Records id ledger told) : Reflects ledger told.2 := by
  rcases told with ⟨_ | _, after⟩ <;> exact records

theorem Records.mapError {Fault Other : Type} {note : Ledger → Ledger}
    {told : Except Fault Unit × State} (records : Records note ledger told)
    (change : Fault → Other) : Records note ledger (told.1.mapError change, told.2) := by
  rcases told with ⟨_ | _, after⟩ <;> exact records

namespace Reflects

theorem contentsAt_sound (reflects : Reflects ledger state) (schema : String) :
    Holding.Sound (state.contentsAt schema).holdings :=
  (reflects.sound schema).perm (reflects.holdings schema)

theorem follows {action : List Holding → List Holding} (reflects : Reflects ledger state)
    (follows : state.Follows schema contents after)
    (alike : (action (ledger.held schema)).Perm contents.holdings)
    (sound : Holding.Sound contents.holdings) : Reflects (ledger.change schema action) after where
  alone := follows.alone
  isOpen := follows.isOpen.trans reflects.isOpen
  names := follows.names.trans reflects.names
  lasting := reflects.lasting
  valid := reflects.valid
  holdings other := by
    rw [held_change, follows.contents]
    split
    · exact alike
    · exact reflects.holdings other
  sound other := by
    rw [held_change]
    split
    · exact sound.perm alike.symm
    · exact reflects.sound other

theorem keep (reflects : Reflects ledger state)
    (keeps : state.Follows schema (state.contentsAt schema) after) : Reflects ledger after := by
  have same : ledger.change schema id = ledger := change_eq_self rfl
  rw [← same]
  exact reflects.follows keeps (reflects.holdings schema) (reflects.contentsAt_sound schema)

theorem noteRead (reflects : Reflects ledger state) (schema : String) :
    Reflects ledger (state.noteRead schema) := by
  have keeps : state.Follows schema (state.contentsAt schema) (state.noteRead schema) :=
    State.noteRead_follows reflects.alone schema
  exact reflects.keep keeps

/-- One lemma for all that changes a schema: what the change does to the holdings is to be noted. -/
theorem change {action : List Holding → List Holding} {change : Contents → Except Fault Contents}
    (reflects : Reflects ledger state) (there : state.HasSchema schema)
    (changes : ∀ after, change (state.contentsAt schema) = .ok after →
      (action (ledger.held schema)).Perm after.holdings ∧ Holding.Sound after.holdings) :
    Records (Ledger.change schema action) ledger (state.change schema change) := by
  cases changed : change (state.contentsAt schema) with
  | error fault =>
      obtain ⟨after, ended, keeps⟩ := State.change_error change reflects.alone changed
      rw [ended]
      exact reflects.keep keeps
  | ok contents =>
      obtain ⟨after, ended, follows⟩ := State.change_ok change reflects.alone there changed
      obtain ⟨alike, sound⟩ := changes contents changed
      rw [ended]
      exact reflects.follows follows alike sound

/-- Rows come and go, and the ledger stays. -/
theorem changeRows {change : Contents → Except Fault Contents} (reflects : Reflects ledger state)
    (there : state.HasSchema schema)
    (keeps : ∀ contents after, Holding.Sound contents.holdings → change contents = .ok after →
      after.holdings = contents.holdings) :
    Records id ledger (state.change schema change) := by
  have noted : Records (Ledger.change schema id) ledger (state.change schema change) := by
    apply reflects.change there
    intro after changed
    rw [keeps _ _ (reflects.contentsAt_sound schema) changed]
    exact ⟨reflects.holdings schema, reflects.contentsAt_sound schema⟩
  exact noted.of_same (change_eq_self rfl).symm

theorem createTable (reflects : Reflects ledger state) (ifMissing : Bool) (object : ObjectName)
    (body : TableBody) :
    Records (add object.schemaName ⟨object.name.value, .table,
      body.references.map (Reference.respelled body.columns)⟩) ledger
        (state.createTable ifMissing object (.ok body)) := by
  unfold State.createTable
  dsimp only
  split
  · rename_i missing
    have taken : Holding.IsTaken object.name.value (ledger.held object.schemaName) := by
      rw [Bool.and_eq_true, beq_iff_eq] at missing
      cases found : state.schemaOf object with
      | error fault => simp [found, Except.map, Except.toOption] at missing
      | ok contents =>
          obtain ⟨rfl, -⟩ := State.schemaOf_ok reflects.alone found
          rw [Holding.IsTaken.perm (reflects.holdings _), ← Contents.isTaken_iff]
          simpa [found, Except.map, Except.toOption] using missing.2
    rw [Records, add_of_taken ⟨object.name.value, .table, _⟩ taken]
    exact reflects.noteRead _
  · unfold State.changeBy
    split
    · exact reflects
    · rename_i table found
      obtain ⟨contents, held, found⟩ := Outcome.bind_eq_ok.mp found
      obtain ⟨rfl, there⟩ := State.schemaOf_ok reflects.alone held
      obtain ⟨_, allowed, made⟩ := Outcome.bind_eq_ok.mp found
      change Contents.tableOf object.name.value body = .ok table at made
      obtain ⟨legal, free⟩ := Contents.checkNew_ok allowed
      rw [← Contents.tableOf_holding made]
      apply reflects.change there
      intro after added
      obtain rfl := Except.ok.inj added
      have named : table.name = object.name.value := State.tableOf_name made
      have alike : (Holding.add table.holding (ledger.held object.schemaName)).Perm
          ((state.contentsAt object.schemaName).addTable table).holdings := by
        apply (Holding.add_perm (reflects.holdings _)).trans
        apply Contents.addTable_holdings
        rwa [named]
      have legal' : Identifier.isReserved table.holding.name = false := by
        rw [← legal, ← named]
        rfl
      exact ⟨alike, ((reflects.sound _).add legal').perm alike⟩

theorem createView (reflects : Reflects ledger state) (object : ObjectName)
    (results : List Result) :
    Records (add object.schemaName ⟨object.name.value, .view, []⟩) ledger
      (state.createView object results) := by
  unfold State.createView State.changeBy
  dsimp only
  split
  · exact reflects
  · rename_i found
    obtain ⟨contents, held, allowed⟩ := Outcome.bind_eq_ok.mp found
    obtain ⟨rfl, there⟩ := State.schemaOf_ok reflects.alone held
    obtain ⟨legal, free⟩ := Contents.checkNew_ok allowed
    let view : View := ⟨object.name.value, results⟩
    have free : ¬ Holding.IsTaken view.name (state.contentsAt object.schemaName).holdings := free
    have legal : Identifier.isReserved view.holding.name = false := legal
    apply reflects.change there
    intro after added
    obtain rfl := Except.ok.inj added
    have alike : (Holding.add view.holding (ledger.held object.schemaName)).Perm
        ((state.contentsAt object.schemaName).addView view).holdings := by
      rw [← Contents.addView_holdings free]
      exact Holding.add_perm (reflects.holdings _)
    exact ⟨alike, ((reflects.sound _).add legal).perm alike⟩

theorem drop {kind : ItemKind} {name other : String} (reflects : Reflects ledger state)
    (there : state.HasSchema schema) (same : Identifier.same name other = true)
    {change : Contents → Except Fault Contents}
    (drops : ∀ after, change (state.contentsAt schema) = .ok after →
      Holding.remove kind name (state.contentsAt schema).holdings = after.holdings) :
    Records (remove schema kind other) ledger (state.change schema change) := by
  apply reflects.change there
  intro after changed
  have alike : Holding.remove kind other (ledger.held schema) =
      Holding.remove kind name (ledger.held schema) := by
    simp only [Holding.remove, Identifier.same_congr same]
  rw [alike, ← drops after changed]
  exact ⟨(reflects.holdings schema).filter _, (reflects.contentsAt_sound schema).remove⟩

theorem dropTable (reflects : Reflects ledger state) (object : ObjectName) :
    Records (remove object.schemaName .table object.name.value) ledger
      (state.dropTable object) := by
  unfold State.dropTable State.changeBy
  dsimp only
  rw [State.contentsOf_eq reflects.alone]
  split
  · exact reflects
  · rename_i table found
    have dropped : (state.contentsAt object.schemaName).dropped object = .ok table := found
    have held : (state.contentsAt object.schemaName).table? object.name.value = some table := by
      unfold Contents.dropped at dropped
      split at dropped
      · cases dropped
      · exact Contents.require_table dropped
    exact reflects.drop (State.hasSchema_of_table held) (Contents.table?_same held)
      fun after gone => Contents.dropTable_holdings gone

theorem dropView (reflects : Reflects ledger state) (object : ObjectName) :
    Records (remove object.schemaName .view object.name.value) ledger
      (state.dropView object) := by
  unfold State.dropView State.changeBy
  dsimp only
  rw [State.contentsOf_eq reflects.alone]
  split
  · exact reflects
  · rename_i view found
    have dropped : (state.contentsAt object.schemaName).droppedView object = .ok view := found
    have held : (state.contentsAt object.schemaName).view? object.name.value = some view := by
      unfold Contents.droppedView at dropped
      split at dropped
      · cases dropped
      · rename_i here
        obtain rfl := Except.ok.inj dropped
        exact here
      · cases dropped
    apply reflects.drop (State.hasSchema_of_view held) (Contents.droppedView_same dropped)
    intro after gone
    obtain rfl := Except.ok.inj gone
    exact Contents.dropView_holdings

theorem hasSchema_of_prepared {object : ObjectName} {columns : Option (List String)} {width : Nat}
    {insertion : Contents.Insertion} (reflects : Reflects ledger state)
    (prepared : state.prepareInsert object columns width = .ok insertion) :
    state.HasSchema object.schemaName := by
  unfold State.prepareInsert at prepared
  rw [State.contentsOf_eq reflects.alone] at prepared
  have found : (state.contentsAt object.schemaName).prepare object columns width =
      .ok insertion := prepared
  unfold Contents.prepare at found
  split at found
  · cases found
  · obtain ⟨table, required, -⟩ := Outcome.bind_eq_ok.mp found
    exact State.hasSchema_of_table (Contents.require_table required)

theorem insertRow {object : ObjectName} {columns : Option (List String)} {width : Nat}
    {insertion : Contents.Insertion} (reflects : Reflects ledger state)
    (prepared : state.prepareInsert object columns width = .ok insertion) (values : List Value) :
    Records id ledger (state.insertRow object.schemaName insertion values) :=
  reflects.changeRows (reflects.hasSchema_of_prepared prepared) fun _ _ sound inserted =>
    Contents.insert_holdings sound inserted

theorem insert (reflects : Reflects ledger state) (object : ObjectName)
    (columns : Option (List String)) (rows : List (List Value)) :
    Records id ledger (state.insert object columns rows) := by
  unfold State.insert State.changeBy
  dsimp only
  split
  · exact reflects
  · rename_i insertion prepared
    exact reflects.changeRows (reflects.hasSchema_of_prepared prepared) fun _ _ sound inserted =>
      Contents.insertAll_holdings sound inserted

theorem select (reflects : Reflects ledger state) (results : List Result)
    (source : Option (ObjectName × Option Named)) :
    Reflects ledger (state.select results source).2 := by
  unfold State.select
  split
  · exact reflects
  · split
    · exact reflects
    · exact reflects.noteRead _

end Reflects

end Ledger

/-- A table that was not there stands behind the others once it is made. -/
theorem State.createTable_adds {state after : State} {ifMissing : Bool} {object : ObjectName}
    {body : TableBody} {table : Table} (alone : state.Alone)
    (free : (state.contentsAt object.schemaName).isTaken object.name.value = false)
    (made : Contents.tableOf object.name.value body = .ok table)
    (created : state.createTable ifMissing object (.ok body) = (.ok (), after)) :
    after.contentsAt object.schemaName =
      (state.contentsAt object.schemaName).addTable table := by
  unfold State.createTable at created
  dsimp only at created
  split at created
  · rename_i missing
    rw [Bool.and_eq_true, beq_iff_eq] at missing
    cases found : state.schemaOf object with
    | error fault => simp [found, Except.map, Except.toOption] at missing
    | ok contents =>
        obtain ⟨rfl, -⟩ := State.schemaOf_ok alone found
        simp [found, Except.map, Except.toOption, free] at missing
  · unfold State.changeBy at created
    split at created
    · cases created
    · rename_i other found
      obtain ⟨contents, held, found⟩ := Outcome.bind_eq_ok.mp found
      obtain ⟨rfl, there⟩ := State.schemaOf_ok alone held
      obtain ⟨_, -, again⟩ := Outcome.bind_eq_ok.mp found
      change Contents.tableOf object.name.value body = .ok other at again
      obtain rfl := Except.ok.inj (made.symm.trans again)
      obtain ⟨last, ended, follows⟩ := State.change_ok
        (fun contents => .ok (contents.addTable table)) alone there rfl
      rw [ended] at created
      obtain rfl := (Prod.mk.inj created).2
      rw [follows.contents, if_pos rfl]

namespace Contents

variable {contents : Contents} {table : Table} {object : ObjectName}

/-- A row goes into a table that was just made and refers to nothing. -/
theorem insert_added {columns : List String} {places : List (Option Nat)} {values : List Value}
    {row : Row} {kept : Table} (named : table.name = object.name.value)
    (free : contents.isTaken object.name.value = false) (plain : table.references = [])
    (placed : placesOf object table (some columns) columns.length = .ok places)
    (stored : table.store
        ((places.zip values).filterMap fun (place, value) => place.map fun place => (place, value))
        (((places.zip values).find? (·.1.isNone)).map (·.2)) = .ok (row, kept)) :
    (contents.addTable table).prepare object (some columns) columns.length =
        .ok ⟨table.name, places⟩ ∧
      ∃ after, (contents.addTable table).insert ⟨table.name, places⟩ values = .ok after := by
  obtain ⟨vacant, unseen⟩ : contents.table? object.name.value = none ∧
      contents.view? object.name.value = none := by
    simpa [isTaken] using free
  have found : (contents.addTable table).table? object.name.value = some table := by
    unfold table? at vacant ⊢
    simp [addTable, List.find?_append, vacant, named, Identifier.same_refl]
  constructor
  · have hidden : (contents.addTable table).view? object.name.value = none := unseen
    have required : (contents.addTable table).require object = .ok table := by
      simp [require, found]
    simp [prepare, hidden, required, placed, plain, bind, Except.bind, pure, Except.pure,
      Functor.discard, Functor.mapConst, Except.map]
  · have bare : kept.references = [] :=
      (congrArg Holding.references (Table.store_holding stored)).trans plain
    refine ⟨(contents.addTable table).update kept, ?_⟩
    unfold insert
    rw [named, found]
    dsimp only
    rw [stored]
    simp [bare, bind, Except.bind, pure, Except.pure]

end Contents

namespace Ledger

variable {ledger : Ledger} {state after : State} {schema : String} {contents : Contents}

namespace Reflects

/-- A table of the program's own is there after a row was stored in it. If it was just made, storing
the row does not fail. -/
theorem keep_row {object : ObjectName} {body : TableBody} {table kept : Table}
    {columns : List String} {values : List Value} {places : List (Option Nat)} {row : Row}
    (reflects : Reflects ledger state)
    (made : Contents.tableOf object.name.value body = .ok table) (plain : table.references = [])
    (placed : Contents.placesOf object table (some columns) columns.length = .ok places)
    (stored : table.store
        ((places.zip values).filterMap fun (place, value) => place.map fun place => (place, value))
        (((places.zip values).find? (·.1.isNone)).map (·.2)) = .ok (row, kept)) :
    Records (add object.schemaName ⟨object.name.value, .table, []⟩) ledger
      (state.keep object body columns values) := by
  have created := reflects.createTable true object body
  have told : table.holding = ⟨object.name.value, .table,
    body.references.map (Reference.respelled body.columns)⟩ := Contents.tableOf_holding made
  have named : table.name = object.name.value := congrArg Holding.name told
  have bare : body.references.map (Reference.respelled body.columns) = [] :=
    (congrArg Holding.references told).symm.trans plain
  rw [bare] at created
  unfold State.keep
  split
  · rename_i ended
    rwa [ended] at created
  · rename_i next ended
    rw [ended] at created
    by_cases taken : Holding.IsTaken object.name.value (ledger.held object.schemaName)
    · have same := add_of_taken ⟨object.name.value, .table, []⟩ taken
      rw [Records, same] at created
      split
      · exact created
      · rename_i insertion prepared
        exact (created.insertRow prepared values).of_same same
    · rw [Holding.IsTaken.perm (reflects.holdings _), ← Contents.isTaken_eq_false] at taken
      have added := State.createTable_adds reflects.alone taken made ended
      obtain ⟨prepared, last, inserted⟩ :=
        Contents.insert_added named taken plain placed stored
      have ready : next.prepareInsert object (some columns) columns.length =
          .ok ⟨table.name, places⟩ := by
        rw [State.prepareInsert, State.contentsOf_eq created.alone, added]
        exact prepared
      rw [← added] at inserted
      obtain ⟨final, done, -⟩ := State.change_ok (·.insert ⟨table.name, places⟩ values)
        created.alone (created.hasSchema_of_prepared ready) inserted
      have noted := created.insertRow ready values
      rw [ready]
      dsimp only
      unfold State.insertRow at noted ⊢
      rw [done] at noted ⊢
      exact noted

end Reflects

end Ledger

end Rollout.Sqlite
