import Rollout.Proofs.Sqlite.Ledger
import Rollout.Proofs.Sqlite.Lock
import Rollout.Proofs.Keyword
import Rollout.Sqlite.Basic

/-!
The catalog lists what was made and not dropped since: every table and view of a schema, and every
reference of its tables. It leaves out the program's own tables, and every name that begins as the
database's own do, by a pattern in which any character may follow.
-/

namespace Rollout.Sqlite

open Identifier (folded)

/-- The statement of a text that has just one. -/
def single? (sql : String) : Option Statement :=
  match Parser.next (Token.ofText sql) with
  | .ok (some (statement, [])) => some statement
  | _ => none

/-- What a statement that succeeds makes or drops. -/
def Statement.note : Statement → Ledger → Ledger
  | createTable _ object (.ok body) =>
      .add object.schemaName ⟨object.name.value, .table,
        body.references.map (Reference.respelled body.columns)⟩
  | createView object _ => .add object.schemaName ⟨object.name.value, .view, []⟩
  | dropTable object => .remove object.schemaName .table object.name.value
  | dropView object => .remove object.schemaName .view object.name.value
  | _ => id

/-- A call that may change what there is to list. -/
inductive Change where
  | exec (sql : String)
  | attach (schema : String)
  | lock
  | unlock
  | audit (entry : AuditEntry)

namespace Change

def perform : Change → State → Except DatabaseError Unit × State
  | exec sql => State.exec sql
  | attach schema => State.attachSchema schema
  | lock => State.lock
  | unlock => State.unlock
  | audit entry => State.recordAudit entry

/-- What is there after the call has succeeded: taking the lock and recording the audit make the
program's own tables, if they are missing. -/
def note : Change → Ledger → Ledger
  | exec sql => match single? sql with
      | some statement => statement.note
      | none => id
  | attach schema => fun ledger => { ledger with attached := ledger.attached ++ [schema] }
  | lock => .add mainSchema ⟨lockTable, .table, []⟩
  | unlock => id
  | audit _ => .add mainSchema ⟨logTable, .table, []⟩

/-- A text is one statement, and neither starts nor ends a transaction. -/
def IsPlain : Change → Prop
  | exec sql => (single? sql).map Statement.management? = some none
  | _ => True

instance (change : Change) : Decidable change.IsPlain := by
  cases change <;> unfold IsPlain <;> infer_instance

/-- Makes the calls, and notes those that succeed. -/
def run : List Change → Ledger × State → Ledger × State
  | [], last => last
  | change :: rest, (ledger, state) =>
      match change.perform state with
      | (.ok (), after) => run rest (change.note ledger, after)
      | (.error _, after) => run rest (ledger, after)

end Change

namespace Contents

/-- The table of the audit, as the program makes it. -/
def logTableEmpty : Table where
  name := logTable
  columns := logBody.columns

theorem tableOf_log : tableOf logTable logBody = .ok logTableEmpty := by
  have made : (tableOf logTable logBody).toOption = some logTableEmpty := by decide +kernel
  cases found : tableOf logTable logBody with
  | error fault => rw [found] at made; cases made
  | ok table => rw [found] at made; rw [Option.some.inj made]

theorem placesOf_log :
    placesOf logObject logTableEmpty (some ["ddsl", "executed_at", "db_user", "os_user"]) 4 =
      .ok [some 1, some 2, some 3, some 4] := by
  have places : (placesOf logObject logTableEmpty
      (some ["ddsl", "executed_at", "db_user", "os_user"]) 4).toOption =
        some [some 1, some 2, some 3, some 4] := by decide +kernel
  cases found : placesOf logObject logTableEmpty
      (some ["ddsl", "executed_at", "db_user", "os_user"]) 4 with
  | error fault => rw [found] at places; cases places
  | ok placed => rw [found] at places; rw [Option.some.inj places]

end Contents

namespace Ledger.Reflects

variable {ledger : Ledger} {state : State}

theorem createTable_unread (reflects : Reflects ledger state) (ifMissing : Bool)
    (object : ObjectName) (fault : Fault) :
    Records id ledger (state.createTable ifMissing object (.error fault)) := by
  unfold State.createTable
  dsimp only
  split
  · exact reflects.noteRead _
  · unfold State.changeBy
    split
    · exact reflects
    · rename_i table found
      obtain ⟨contents, -, found⟩ := Outcome.bind_eq_ok.mp found
      obtain ⟨_, -, read⟩ := Outcome.bind_eq_ok.mp found
      cases read

theorem execute {statement : Statement} (reflects : Reflects ledger state)
    (plain : statement.management? = none) :
    Records statement.note ledger (state.execute statement) := by
  cases statement with
  | createTable ifMissing object body =>
      cases body with
      | ok body => exact reflects.createTable ifMissing object body
      | error fault => exact reflects.createTable_unread ifMissing object fault
  | createView object results => exact reflects.createView object results
  | dropTable object => exact reflects.dropTable object
  | dropView object => exact reflects.dropView object
  | insert object columns rows => exact reflects.insert object columns rows
  | select results source =>
      have selected := reflects.select results source
      simp only [State.execute]
      rcases shown : state.select results source with ⟨_ | _, after⟩ <;> rw [shown] at selected <;>
        exact selected
  | begin => cases plain
  | commit => cases plain
  | rollback => cases plain

theorem exec {sql : String} (reflects : Reflects ledger state) (plain : (Change.exec sql).IsPlain) :
    Records (Change.exec sql).note ledger (state.exec sql) := by
  obtain ⟨statement, single, plain⟩ := Option.map_eq_some_iff.mp plain
  have parsed : Parser.next (Token.ofText sql) = .ok (some (statement, [])) := by
    unfold single? at single
    split at single
    · rename_i found
      obtain rfl := Option.some.inj single
      exact found
    · cases single
  rw [State.exec_single reflects.isOpen parsed]
  have note : (Change.exec sql).note = statement.note := by simp only [Change.note, single]
  rw [note]
  exact (reflects.execute plain).mapError _

theorem setLock (reflects : Reflects ledger state) (holdsLock : Bool) :
    Reflects ledger (state.setLock holdsLock) :=
  ⟨⟨reflects.alone.readers, reflects.alone.writer⟩, reflects.isOpen, reflects.names,
    reflects.lasting, reflects.valid, reflects.holdings, reflects.sound⟩

theorem refuseLock (reflects : Reflects ledger state) (note : Ledger → Ledger) :
    Records note ledger state.refuseLock := by
  unfold State.refuseLock
  rw [State.contentsOf_eq reflects.alone]
  dsimp only
  split <;> exact reflects.noteRead mainSchema

theorem lock (reflects : Reflects ledger state) :
    Records Change.lock.note ledger state.lock := by
  unfold State.lock
  split
  · exact reflects
  · split
    · exact reflects
    · have kept : Records Change.lock.note ledger (state.keep lockObject lockBody ["id", "holder"]
          [.integer lockNumber, .text holder]) :=
        reflects.keep_row Contents.tableOf_lock rfl Contents.placesOf_lock Contents.store_lock
      dsimp only
      split <;> rename_i ended <;> rw [ended] at kept
      · exact Reflects.setLock kept true
      · split
        · exact Reflects.refuseLock kept _
        · exact kept

theorem unlock (reflects : Reflects ledger state) :
    Records Change.unlock.note ledger state.unlock := by
  unfold State.unlock
  split
  · exact reflects
  · split
    · exact reflects
    · have deleted (checked : Except Fault Unit) : Reflects ledger
          (state.changeBy mainSchema checked fun () contents => contents.deleteLock).2 := by
        unfold State.changeBy
        split
        · exact reflects
        · have changed : Records id ledger
              (state.change mainSchema fun contents => contents.deleteLock) :=
            reflects.changeRows (.inl (Identifier.same_refl _)) fun _ _ sound deleted =>
              Contents.deleteLock_holdings sound deleted
          exact changed.kept
      dsimp only
      split <;> rename_i after ended <;> obtain rfl : _ = after := congrArg Prod.snd ended
      · exact (deleted _).setLock false
      · exact deleted _

theorem recordAudit (reflects : Reflects ledger state) (entry : AuditEntry) :
    Records (Change.audit entry).note ledger (state.recordAudit entry) := by
  unfold State.recordAudit
  split
  · exact reflects
  · apply Records.mapError
    exact reflects.keep_row Contents.tableOf_log rfl Contents.placesOf_log
      (by rfl)

/-- A schema that is attached is empty. -/
theorem contentsAt_attached (state : State) (schema other : String) :
    State.contentsAt other (state.withConnection { state.connection with
      schemas := state.connection.schemas ++ [(schema, {})] }) = state.contentsAt other := by
  unfold State.contentsAt
  split
  · rfl
  · simp only [State.ownSchema?, State.withConnection, List.find?_append]
    cases state.connection.schemas.find? fun held => Identifier.same held.1 other with
    | some held => rfl
    | none => cases found : Identifier.same schema other <;> simp [found]

theorem attach (reflects : Reflects ledger state) {schema : String}
    (valid : Identifier.isValid schema = true) :
    Records (Change.attach schema).note ledger (state.attach schema) := by
  unfold State.attach
  dsimp only
  split
  · exact reflects
  · split
    · exact reflects
    · rename_i taken
      have missing : ¬ state.HasSchema schema := by
        simpa [State.HasSchema] using taken
      refine ⟨⟨reflects.alone.readers, reflects.alone.writer⟩, reflects.isOpen, ?_, ?_, ?_, ?_,
        reflects.sound⟩
      · simp only [State.withConnection, List.map_append, reflects.names]
        rfl
      · intro member
        rcases List.mem_append.mp member with before | last
        · exact reflects.lasting before
        · obtain rfl := List.mem_singleton.mp last
          apply missing
          apply State.hasSchema_of_name _ rfl
          rw [reflects.names]
          exact List.mem_cons_self
      · intro other member
        rcases List.mem_append.mp member with before | last
        · exact reflects.valid other before
        · obtain rfl := List.mem_singleton.mp last
          exact valid
      · intro other
        rw [contentsAt_attached]
        exact reflects.holdings other

theorem attachSchema (reflects : Reflects ledger state) (schema : String) :
    Records (Change.attach schema).note ledger (state.attachSchema schema) := by
  unfold State.attachSchema
  split
  · exact reflects
  · split
    · exact reflects
    · rename_i valid
      exact (reflects.attach (by simpa using valid)).mapError _

theorem perform {change : Change} (reflects : Reflects ledger state) (plain : change.IsPlain) :
    Records change.note ledger (change.perform state) := by
  cases change with
  | exec sql => exact reflects.exec plain
  | attach schema => exact reflects.attachSchema schema
  | lock => exact reflects.lock
  | unlock => exact reflects.unlock
  | audit entry => exact reflects.recordAudit entry

theorem run {changes : List Change} (reflects : Reflects ledger state)
    (plain : ∀ change ∈ changes, change.IsPlain) :
    Reflects (Change.run changes (ledger, state)).1 (Change.run changes (ledger, state)).2 := by
  induction changes generalizing ledger state with
  | nil => exact reflects
  | cons change rest ih =>
      obtain ⟨first, others⟩ := List.forall_mem_cons.mp plain
      have recorded := reflects.perform first
      unfold Change.run
      split <;> rename_i ended <;> rw [ended] at recorded
      · exact ih recorded others
      · exact ih recorded others

theorem opened {file : File} (alone : ({ file } : State).Alone)
    (sound : Holding.Sound file.contents.holdings) :
    Reflects (Ledger.ofContents file.contents) { file } where
  alone := alone
  isOpen := rfl
  names := rfl
  lasting := List.not_mem_nil
  valid _ member := absurd member List.not_mem_nil
  holdings schema := by
    rw [Ledger.held_ofContents, State.contentsAt]
    by_cases main : Identifier.same schema mainSchema = true
    · rw [if_pos (Identifier.same_iff_folded.mp main), if_pos main]
      rfl
    · rw [if_neg (mt Identifier.same_iff_folded.mpr main), if_neg main]
      have bare : (({ file } : State).ownSchema? schema).getD {} = {} := by
        unfold State.ownSchema?
        rw [List.find?_singleton]
        by_cases temporary : Identifier.same temporarySchema schema = true
        · rw [if_pos temporary]
          rfl
        · rw [if_neg temporary]
          rfl
      rw [bare]
      rfl
  sound schema := by
    rw [Ledger.held_ofContents]
    split
    · exact sound
    · exact ⟨.nil, fun _ member => absurd member List.not_mem_nil⟩

end Ledger.Reflects

/-- The items are those that the ledger has for the schema, by name and each once, without the
names that are left out. -/
structure Ledger.Lists (leftOut : String → Bool) (schema : String) (items : List SchemaItem)
    (ledger : Ledger) : Prop where
  ascends : items.Pairwise fun first second => first.name < second.name
  exact : ∀ item, item ∈ items ↔ item.schema = schema ∧
    ∃ holding ∈ ledger.held schema,
      item.name = holding.name ∧ item.kind = holding.kind ∧ leftOut holding.name = false

/-- The reference as the catalog shows it, with the table that it is of. -/
def Reference.key (schema table : String) (reference : Reference) : ForeignKey where
  childSchema := schema
  childTable := table
  childColumn := reference.column
  parentSchema := schema
  parentTable := reference.parent
  parentColumn := reference.parentColumn.getD ""

namespace Contents

variable {contents : Contents} {schema : String}

theorem objects_eq : contents.objects = contents.holdings.map fun holding =>
    (holding.name, holding.kind) := by
  simp [objects, holdings, Function.comp_def, Table.holding, View.holding]

theorem mem_items {kind : Option ItemKind} {item : SchemaItem} :
    item ∈ contents.items schema kind ↔ item.schema = schema ∧ ∃ holding ∈ contents.holdings,
      item.name = holding.name ∧ item.kind = holding.kind ∧
        isListed schema holding.name = true ∧ (kind = none ∨ kind = some holding.kind) := by
  obtain ⟨among, name, found⟩ := item
  simp only [items, List.mem_map, List.mem_mergeSort, List.mem_filter, objects_eq,
    Bool.and_eq_true, Bool.or_eq_true, beq_iff_eq, SchemaItem.mk.injEq]
  constructor
  · rintro ⟨_, ⟨⟨holding, member, rfl⟩, listed⟩, rfl, rfl, rfl⟩
    exact ⟨rfl, holding, member, rfl, rfl, listed⟩
  · rintro ⟨rfl, holding, member, rfl, rfl, listed⟩
    exact ⟨_, ⟨⟨holding, member, rfl⟩, listed⟩, rfl, rfl, rfl⟩

theorem mergeSort_ascends {entries : List (String × ItemKind)}
    (apart : entries.Pairwise fun first second => first.1 ≠ second.1) :
    (entries.mergeSort fun first second => decide (first.1 ≤ second.1)).Pairwise
      fun first second => first.1 < second.1 := by
  have sorted : (entries.mergeSort fun first second => decide (first.1 ≤ second.1)).Pairwise
      fun first second => decide (first.1 ≤ second.1) = true :=
    List.pairwise_mergeSort (fun _ _ _ => by simpa using le_trans)
      (fun first second => by simpa using le_total first.1 second.1) entries
  have distinct := (List.mergeSort_perm entries
    fun first second => decide (first.1 ≤ second.1)).symm.pairwise apart Ne.symm
  refine (sorted.and distinct).imp ?_
  rintro first second ⟨most, other⟩
  exact lt_of_le_of_ne (of_decide_eq_true most) other

theorem items_ascend (sound : Holding.Sound contents.holdings) (kind : Option ItemKind) :
    (contents.items schema kind).Pairwise fun first second => first.name < second.name := by
  have apart : contents.objects.Pairwise fun first second => first.1 ≠ second.1 := by
    rw [objects_eq, List.pairwise_map]
    apply sound.distinct.imp
    intro first second other same
    change first.name = second.name at same
    rw [same, Identifier.same_refl] at other
    cases other
  unfold items
  apply List.pairwise_map.mpr
  exact mergeSort_ascends (apart.filter _)

/-- What is asked of one kind is what is of that kind among all. -/
theorem items_kind (sound : Holding.Sound contents.holdings) (kind : ItemKind) :
    contents.items schema (some kind) =
      (contents.items schema none).filter (·.kind == kind) := by
  have all : (contents.items schema none).Pairwise fun first second => first.name < second.name :=
    items_ascend sound none
  have ordered := all.filter (·.kind == kind)
  have same : ∀ item, item ∈ contents.items schema (some kind) ↔
      item ∈ (contents.items schema none).filter (·.kind == kind) := by
    intro item
    rw [List.mem_filter, mem_items, mem_items, beq_iff_eq]
    constructor
    · rintro ⟨rfl, holding, member, named, found, listed, none | same⟩
      · cases none
      · exact ⟨⟨rfl, holding, member, named, found, listed, .inl rfl⟩,
          found.trans (Option.some.inj same).symm⟩
    · rintro ⟨⟨rfl, holding, member, named, found, listed, -⟩, same⟩
      exact ⟨rfl, holding, member, named, found, listed, .inr (by rw [← same, found])⟩
  have alike : (contents.items schema (some kind)).Perm _ :=
    (List.perm_ext_iff_of_nodup (items_ascend sound (some kind)).nodup ordered.nodup).mpr same
  apply alike.eq_of_pairwise _ (items_ascend sound _) ordered
  intro first second _ _ less more
  exact absurd (lt_trans less more) (lt_irrefl _)

/-- Nothing is a function, a procedure or a type. -/
theorem items_other {kind : ItemKind} (other : kind ≠ .table ∧ kind ≠ .view) :
    contents.items schema (some kind) = [] := by
  apply List.eq_nil_iff_forall_not_mem.mpr
  intro item member
  obtain ⟨-, holding, held, -, -, -, none | same⟩ := mem_items.mp member
  · cases none
  · obtain rfl := Option.some.inj same
    rcases List.mem_append.mp held with table | view
    · obtain ⟨table, -, rfl⟩ := List.mem_map.mp table
      exact other.1 rfl
    · obtain ⟨view, -, rfl⟩ := List.mem_map.mp view
      exact other.2 rfl

/-- Views refer to nothing, so what the listed tables refer to is all. -/
theorem references_eq : contents.references schema =
    (contents.holdings.filter fun holding => isListed schema holding.name).flatMap
      fun holding => holding.references.map (Reference.key schema holding.name) := by
  have views : ((contents.views.map View.holding).filter fun holding =>
      isListed schema holding.name).flatMap (fun holding =>
        holding.references.map (Reference.key schema holding.name)) = [] := by
    apply List.flatMap_eq_nil_iff.mpr
    intro holding member
    obtain ⟨view, -, rfl⟩ := List.mem_map.mp (List.mem_of_mem_filter member)
    rfl
  rw [holdings, List.filter_append, List.flatMap_append, views, List.append_nil, List.filter_map,
    List.flatMap_map]
  rfl

end Contents

/-- Names that are the same to the database can be written, both or neither. -/
theorem Identifier.isValid_of_same {first second : String} (same : same first second = true) :
    isValid first = isValid second := by
  have filled (name : String) : name.isEmpty = (folded name).isEmpty := by
    rw [Bool.eq_iff_iff]
    simp [folded, String.isEmpty_iff]
  have clean (name : String) : name.toList.contains '\x00' = (folded name).contains '\x00' := by
    rw [Bool.eq_iff_iff, List.contains_iff_mem, List.contains_iff_mem, folded,
      Text.mem_map_toLower (by decide)]
  rw [isValid, isValid, filled, clean, filled second, clean second, same_iff_folded.mp same]

/-- The parts are compared one after another. -/
theorem partsAtMost_iff {first second : List String} :
    partsAtMost first second = true ↔ first ≤ second := by
  rw [← not_lt]
  induction first generalizing second with
  | nil => simp [partsAtMost]
  | cons part rest ih =>
      cases second with
      | nil => simp [partsAtMost]
      | cons other more =>
          rw [partsAtMost, List.cons_lt_cons_iff]
          by_cases same : part = other
          · simp [same, ih]
          · have apart : other ≠ part := Ne.symm same
            simp only [if_neg same, decide_eq_true_eq, apart, false_and, or_false, not_lt]
            exact (lt_iff_le_and_ne.trans (and_iff_left same))

namespace State

variable {state : State}

theorem noteRead_contentsAt (alone : state.Alone) (schema other : String) :
    (state.noteRead schema).contentsAt other = state.contentsAt other := by
  have follows : state.Follows other (state.contentsAt other) (state.noteRead schema) :=
    noteRead_follows alone schema
  rw [follows.contents, if_pos rfl]

/-- The references of one schema after another. Where there is no schema, there are none. -/
theorem referencesOf_eq {schemas : List String} (alone : state.Alone) :
    (referencesOf schemas state).1 =
      .ok (schemas.flatMap fun schema => (state.contentsAt schema).references schema) := by
  induction schemas generalizing state with
  | nil => rfl
  | cons schema rest ih =>
      have found : state.schema? schema = .ok
          (if Identifier.same schema mainSchema then some state.visible
            else state.ownSchema? schema) := schema?_eq alone
      have here : ((if Identifier.same schema mainSchema then some state.visible
          else state.ownSchema? schema).map (·.references schema)).getD [] =
            (state.contentsAt schema).references schema := by
        unfold contentsAt
        split
        · rfl
        · cases state.ownSchema? schema <;> rfl
      have later : (state.noteRead schema).Alone := (noteRead_within alone schema).1.alone
      unfold referencesOf
      rw [found]
      simp only [here, ih later, noteRead_contentsAt alone]
      rfl

end State

namespace Ledger

variable {ledger : Ledger} {state : State} {schema : String} {items : List SchemaItem}

/-- No name is left out by its first letters alone if and only if the items are all that could be
made, but for the program's own tables. -/
theorem lists_all_iff (sound : Holding.Sound (ledger.held schema))
    (spelled : schema = mainSchema ∨ Identifier.same schema mainSchema = false)
    (lists : ledger.Lists (fun name => !Contents.isListed schema name) schema items) :
    ledger.Lists (fun name => Identifier.isReserved name ||
        Identifier.same schema mainSchema && isBookkeeping name) schema items ↔
      ∀ holding ∈ ledger.held schema, isInternal holding.name = false := by
  have main : Identifier.same schema mainSchema = (schema == mainSchema) := by
    rcases spelled with rfl | other
    · rfl
    · rw [other, eq_comm, beq_eq_false_iff_ne]
      rintro rfl
      rw [Identifier.same_refl] at other
      cases other
  have own (name : String) (own : isBookkeeping name = true) : isInternal name = false := by
    rw [isBookkeeping, Bool.or_eq_true, beq_iff_eq, beq_iff_eq] at own
    rcases own with rfl | rfl <;> decide
  constructor
  · intro all holding member
    by_contra internal
    rw [Bool.not_eq_false] at internal
    have plain : isBookkeeping holding.name = false := by
      by_contra kept
      rw [own holding.name (by simpa using kept)] at internal
      cases internal
    have listed : (⟨schema, holding.name, holding.kind⟩ : SchemaItem) ∈ items :=
      (all.exact _).mpr ⟨rfl, holding, member, rfl, rfl, by simp [sound.legal holding member, plain]⟩
    obtain ⟨-, other, -, named, -, shown⟩ := (lists.exact _).mp listed
    rw [← show holding.name = other.name from named] at shown
    simp [Contents.isListed, internal] at shown
  · intro none
    refine ⟨lists.ascends, fun item => (lists.exact item).trans ?_⟩
    refine and_congr_right fun _ => exists_congr fun holding => and_congr_right fun member => ?_
    simp [Contents.isListed, none holding member, sound.legal holding member, main]

namespace Reflects

/-- What the catalog shows of a schema is what the ledger has for it. -/
theorem schemaItems (reflects : Reflects ledger state)
    (there : ∃ name ∈ ledger.schemas, Identifier.same name schema = true) :
    ∃ items, (state.schemaItems schema none).1 = .ok items ∧
      ledger.Lists (fun name => !Contents.isListed schema name) schema items ∧
      ∀ kind, (state.schemaItems schema (some kind)).1 = .ok (items.filter (·.kind == kind)) := by
  obtain ⟨name, member, same⟩ := there
  have valid : Identifier.isValid schema = true := by
    rw [← Identifier.isValid_of_same same]
    rcases List.mem_cons.mp member with rfl | attached
    · decide
    · exact reflects.valid name attached
  have found : state.schema? schema = .ok (some (state.contentsAt schema)) := by
    rw [State.schema?_eq reflects.alone, State.contentsAt]
    split
    · rfl
    · rename_i other
      have there : state.HasSchema schema := by
        rcases List.mem_cons.mp member with rfl | attached
        · exact .inl (by rwa [Identifier.same_iff_folded, eq_comm, ← Identifier.same_iff_folded])
        · apply State.hasSchema_of_name _ (Identifier.same_iff_folded.mp same)
          rw [reflects.names]
          exact List.mem_cons_of_mem _ attached
      obtain ⟨contents, own⟩ := Option.isSome_iff_exists.mp (there.resolve_left other)
      rw [own]
      rfl
  have sound := reflects.contentsAt_sound schema
  have shown (kind : Option ItemKind) : (state.schemaItems schema kind).1 =
      .ok ((state.contentsAt schema).items schema kind) := by
    unfold State.schemaItems
    simp only [reflects.isOpen, Bool.not_true, Bool.false_eq_true, if_false]
    split
    · rename_i other
      rcases other with rfl | rfl | rfl <;> rw [Contents.items_other (by decide)]
    · simp only [valid, Bool.not_true, Bool.false_eq_true, if_false, found]
  refine ⟨_, shown none, ⟨Contents.items_ascend sound none, fun item => ?_⟩, fun kind => ?_⟩
  · rw [Contents.mem_items]
    refine and_congr_right fun _ => exists_congr fun holding => ?_
    rw [(reflects.holdings schema).mem_iff]
    simp
  · rw [shown, Contents.items_kind sound]

theorem schemaList (reflects : Reflects ledger state) :
    state.schemaList.Perm ledger.schemas := by
  have attached : (state.connection.schemas.map (·.1)).filter (· != temporarySchema) =
      ledger.attached := by
    rw [reflects.names, List.filter_cons_of_neg (by simp)]
    apply List.filter_eq_self.mpr
    rintro schema member
    rw [bne_iff_ne]
    rintro rfl
    exact reflects.lasting member
  rw [State.schemaList, attached]
  exact List.mergeSort_perm _ _

/-- What the catalog shows of references is what the ledger has of the tables it shows. -/
theorem foreignKeys (reflects : Reflects ledger state) :
    ∃ keys, state.foreignKeys.1 = .ok keys ∧
      keys.Pairwise (fun first second => keyParts first ≤ keyParts second) ∧
      keys.Perm (ledger.schemas.flatMap fun schema =>
        ((ledger.held schema).filter fun holding =>
          Contents.isListed schema holding.name).flatMap fun holding =>
            holding.references.map (Reference.key schema holding.name)) := by
  have sorted (keys : List ForeignKey) : (keys.mergeSort fun first second =>
      partsAtMost (keyParts first) (keyParts second)).Pairwise
        fun first second => partsAtMost (keyParts first) (keyParts second) = true := by
    apply List.pairwise_mergeSort
    · intro first second third
      simp only [partsAtMost_iff]
      exact le_trans
    · intro first second
      rw [Bool.or_eq_true, partsAtMost_iff, partsAtMost_iff]
      exact le_total _ _
  have found : (State.referencesOf state.schemaList state).1 =
      .ok (state.schemaList.flatMap fun schema => (state.contentsAt schema).references schema) :=
    State.referencesOf_eq reflects.alone
  have shown : state.foreignKeys.1 = .ok ((state.schemaList.flatMap fun schema =>
      (state.contentsAt schema).references schema).mergeSort fun first second =>
        partsAtMost (keyParts first) (keyParts second)) := by
    unfold State.foreignKeys
    simp only [reflects.isOpen, Bool.not_true, Bool.false_eq_true, if_false, found]
    rfl
  refine ⟨_, shown, (sorted _).imp partsAtMost_iff.mp, (List.mergeSort_perm _ _).trans ?_⟩
  apply reflects.schemaList.flatMap
  intro schema _
  rw [Contents.references_eq]
  exact ((reflects.holdings schema).symm.filter _).flatMap_right _

end Reflects

end Ledger

/-- A table that refers to itself, and a view that is dropped again. -/
def staff : List Change :=
  [.exec "CREATE TABLE staff (id TEXT, boss TEXT, FOREIGN KEY (BOSS) REFERENCES staff (id))",
    .attach "audit", .lock, .exec "CREATE VIEW recent AS SELECT 1", .exec "DROP VIEW recent",
    .audit ⟨"drop views", "", none, none⟩, .unlock]

end Rollout.Sqlite
