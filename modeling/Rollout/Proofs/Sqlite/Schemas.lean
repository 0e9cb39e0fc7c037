import Mathlib
import Rollout.Proofs.Sqlite.Contents
import Rollout.Proofs.Sqlite.Statement
import Rollout.Sqlite.Bookkeeping

/-!
What a schema holds: its tables and views by their names, and the references of the tables. No two
of them have the same name, and only what makes or drops one of them changes what there is. A
connection that has its file to itself sees all of it in each schema, and a change to one schema
leaves the others as they are.
-/

namespace Rollout.Sqlite

namespace Identifier

/-- Two names are the same to the database if they are so in lower case. -/
def folded (name : String) : List Char := name.toList.map Char.toLower

theorem same_iff_folded {first second : String} :
    same first second = true ↔ folded first = folded second := same_iff

theorem same_eq_false {first second : String} :
    same first second = false ↔ folded first ≠ folded second := by
  rw [← Bool.not_eq_true, same_iff_folded]

end Identifier

/-- A table or a view, with the references of a table. -/
structure Holding where
  name : String
  kind : ItemKind
  references : List Reference := []
deriving DecidableEq, Repr

namespace Holding

/-- Names tell them apart, in whatever case they are written, and none is the database's own. -/
structure Sound (holdings : List Holding) : Prop where
  distinct : holdings.Pairwise fun first second => Identifier.same first.name second.name = false
  legal : ∀ holding ∈ holdings, Identifier.isReserved holding.name = false

/-- Does one of them have the name? -/
def IsTaken (name : String) (holdings : List Holding) : Prop :=
  ∃ holding ∈ holdings, Identifier.same holding.name name = true

instance (name : String) (holdings : List Holding) : Decidable (IsTaken name holdings) :=
  inferInstanceAs (Decidable (∃ holding ∈ holdings, Identifier.same holding.name name = true))

/-- With one more, unless its name is taken. -/
def add (holding : Holding) (holdings : List Holding) : List Holding :=
  if IsTaken holding.name holdings then holdings else holdings ++ [holding]

/-- Without the one of the kind that has the name. -/
def remove (kind : ItemKind) (name : String) (holdings : List Holding) : List Holding :=
  holdings.filter fun holding => ¬ (holding.kind = kind ∧ Identifier.same holding.name name = true)

variable {holdings others : List Holding} {holding : Holding} {kind : ItemKind} {name : String}

theorem apart_comm {first second : Holding}
    (apart : Identifier.same first.name second.name = false) :
    Identifier.same second.name first.name = false := by
  rw [Identifier.same_eq_false] at apart ⊢
  exact Ne.symm apart

instance : Std.Symm fun first second : Holding =>
    Identifier.same first.name second.name = false where
  symm _ _ := apart_comm

theorem Sound.perm (sound : Sound holdings) (alike : holdings.Perm others) : Sound others where
  distinct := (alike.pairwise_iff apart_comm).mp sound.distinct
  legal other member := sound.legal other (alike.mem_iff.mpr member)

theorem Sound.eq_of_same (sound : Sound holdings) {first second : Holding} (left : first ∈ holdings)
    (right : second ∈ holdings) (same : Identifier.same first.name second.name = true) :
    first = second := by
  by_contra apart
  have differ := sound.distinct.forall left right apart
  rw [same] at differ
  cases differ

theorem Sound.remove (sound : Sound holdings) : Sound (remove kind name holdings) where
  distinct := sound.distinct.filter _
  legal other member := sound.legal other (List.mem_of_mem_filter member)

theorem Sound.add (sound : Sound holdings)
    (legal : Identifier.isReserved holding.name = false) : Sound (add holding holdings) := by
  unfold Holding.add
  split
  · exact sound
  · rename_i free
    constructor
    · apply List.pairwise_append.mpr
      refine ⟨sound.distinct, List.pairwise_singleton _ _, ?_⟩
      intro other member last same
      obtain rfl := List.mem_singleton.mp same
      by_contra taken
      exact free ⟨other, member, by simpa using taken⟩
    · intro other member
      rcases List.mem_append.mp member with before | last
      · exact sound.legal other before
      · obtain rfl := List.mem_singleton.mp last
        exact legal

theorem IsTaken.perm (alike : holdings.Perm others) :
    IsTaken name holdings ↔ IsTaken name others := by
  simp only [IsTaken, alike.mem_iff]

theorem add_perm (alike : holdings.Perm others) :
    (Holding.add holding holdings).Perm (Holding.add holding others) := by
  unfold Holding.add
  by_cases taken : IsTaken holding.name holdings
  · rwa [if_pos taken, if_pos ((IsTaken.perm alike).mp taken)]
  · rw [if_neg taken, if_neg (mt (IsTaken.perm alike).mpr taken)]
    exact alike.append_right _

end Holding

/-- What a catalog tells of a table. -/
def Table.holding (table : Table) : Holding := ⟨table.name, .table, table.references⟩

def View.holding (view : View) : Holding := ⟨view.name, .view, []⟩

namespace Contents

def holdings (contents : Contents) : List Holding :=
  contents.tables.map Table.holding ++ contents.views.map View.holding

variable {contents after : Contents} {table : Table} {view : View} {name : String}

theorem isTaken_iff : contents.isTaken name = true ↔ Holding.IsTaken name contents.holdings := by
  simp [isTaken, table?, view?, Holding.IsTaken, holdings, Table.holding, View.holding, or_and_right,
    exists_or]

theorem isTaken_eq_false :
    contents.isTaken name = false ↔ ¬ Holding.IsTaken name contents.holdings := by
  rw [← isTaken_iff, Bool.not_eq_true]

/-- What may be made has a name that is not taken and is not the database's own. -/
theorem checkNew_ok {object : ObjectName} (allowed : contents.checkNew object = .ok ()) :
    Identifier.isReserved object.name.value = false ∧
      ¬ Holding.IsTaken object.name.value contents.holdings := by
  rw [← isTaken_eq_false]
  unfold checkNew at allowed
  dsimp only at allowed
  split at allowed
  · cases allowed
  · rename_i legal
    split at allowed
    · cases allowed
    · rename_i table
      split at allowed
      · cases allowed
      · rename_i view
        simp_all [isTaken]

theorem addTable_holdings (free : ¬ Holding.IsTaken table.name contents.holdings) :
    (Holding.add table.holding contents.holdings).Perm (contents.addTable table).holdings := by
  rw [Holding.add, if_neg (show ¬ Holding.IsTaken table.holding.name _ from free)]
  simp only [holdings, addTable, List.map_append, List.append_assoc, List.map_cons, List.map_nil]
  exact List.perm_append_comm.append_left _

theorem addView_holdings (free : ¬ Holding.IsTaken view.name contents.holdings) :
    (Holding.add view.holding contents.holdings) = (contents.addView view).holdings := by
  rw [Holding.add, if_neg (show ¬ Holding.IsTaken view.holding.name _ from free)]
  simp only [holdings, addView, List.map_append, List.append_assoc, List.map_cons, List.map_nil]

theorem dropTable_holdings (dropped : contents.dropTable table = .ok after) :
    Holding.remove .table table.name contents.holdings = after.holdings := by
  unfold dropTable at dropped
  split at dropped
  · cases dropped
  · obtain rfl := Except.ok.inj dropped
    simp [Holding.remove, holdings, List.filter_map, Function.comp_def, Table.holding, View.holding]

theorem dropView_holdings :
    Holding.remove .view view.name contents.holdings = (contents.dropView view).holdings := by
  simp [Holding.remove, holdings, dropView, List.filter_map, Function.comp_def, Table.holding,
    View.holding]

/-- A table that keeps its name and its references is told by the catalog as before. -/
theorem update_holdings {old : Table} (sound : Holding.Sound contents.holdings)
    (found : contents.table? name = some old) (kept : table.holding = old.holding) :
    (contents.update table).holdings = contents.holdings := by
  have held : old.holding ∈ contents.holdings :=
    List.mem_append_left _ (List.mem_map_of_mem (List.mem_of_find?_eq_some found))
  simp only [holdings, update, List.map_map]
  congr 1
  apply List.map_congr_left
  intro other member
  simp only [Function.comp_apply]
  split
  · rename_i same
    have named : old.name = table.name := (congrArg Holding.name kept).symm
    rw [← named] at same
    rw [kept]
    exact (sound.eq_of_same (List.mem_append_left _ (List.mem_map_of_mem member)) held same).symm
  · rfl

end Contents

theorem Table.store_holding {table after : Table} {given : List (Nat × Value)}
    {number : Option Value} {row : Row} (stored : table.store given number = .ok (row, after)) :
    after.holding = table.holding := by
  unfold Table.store at stored
  obtain ⟨made, -, stored⟩ := Outcome.bind_eq_ok.mp stored
  dsimp only at stored
  split at stored
  · cases stored
  · split at stored
    · cases stored
    · split at stored
      · cases stored
      · split at stored <;> cases stored
        rfl

namespace Contents

variable {contents after : Contents} {insertion : Insertion}

theorem insert_holdings {values : List Value} (sound : Holding.Sound contents.holdings)
    (inserted : contents.insert insertion values = .ok after) :
    after.holdings = contents.holdings := by
  unfold insert at inserted
  split at inserted
  · cases inserted
  · rename_i table found
    obtain ⟨⟨row, kept⟩, stored, inserted⟩ := Outcome.bind_eq_ok.mp inserted
    dsimp only at inserted
    split at inserted
    · obtain rfl := Except.ok.inj inserted
      exact update_holdings sound found (Table.store_holding stored)
    · cases inserted

theorem insertAll_holdings {rows : List (List Value)} (sound : Holding.Sound contents.holdings)
    (inserted : rows.foldlM (fun contents values => contents.insert insertion values) contents =
      .ok after) : after.holdings = contents.holdings := by
  induction rows generalizing contents with
  | nil =>
      obtain rfl := Except.ok.inj inserted
      rfl
  | cons values rest ih =>
      rw [List.foldlM_cons] at inserted
      obtain ⟨next, first, later⟩ := Outcome.bind_eq_ok.mp inserted
      have same := insert_holdings sound first
      rw [← same] at sound ⊢
      exact ih sound later

theorem deleteLock_holdings (sound : Holding.Sound contents.holdings)
    (deleted : contents.deleteLock = .ok after) : after.holdings = contents.holdings := by
  unfold deleteLock at deleted
  split at deleted
  · cases deleted
  · obtain ⟨table, required, deleted⟩ := Outcome.bind_eq_ok.mp deleted
    have found : contents.table? lockTable = some table := require_table required
    dsimp only at deleted
    split at deleted
    · cases deleted
    · obtain rfl := Except.ok.inj deleted
      exact update_holdings sound found rfl

end Contents

open Identifier (folded)

namespace State

/-- What the connection sees in a schema, and nothing where there is no such schema. -/
def contentsAt (schema : String) (state : State) : Contents :=
  if Identifier.same schema mainSchema then state.visible else (state.ownSchema? schema).getD {}

def HasSchema (schema : String) (state : State) : Prop :=
  Identifier.same schema mainSchema = true ∨ (state.ownSchema? schema).isSome = true

/-- The second state follows by a call that leaves the given contents in one schema, and the other
schemas as they were. -/
structure Follows (schema : String) (contents : Contents) (before after : State) : Prop
    extends Within before after where
  names : after.connection.schemas.map (·.1) = before.connection.schemas.map (·.1)
  contents : ∀ other, after.contentsAt other =
    if folded other = folded schema then contents else before.contentsAt other

variable {state after : State} {schema : String} {contents : Contents}

theorem ownSchema?_congr {other : String} (alike : folded other = folded schema) :
    state.ownSchema? other = state.ownSchema? schema := by
  simp only [ownSchema?, Identifier.same_congr (Identifier.same_iff_folded.mpr alike)]

theorem contentsAt_congr {other : String} (alike : folded other = folded schema) :
    state.contentsAt other = state.contentsAt schema := by
  have same : Identifier.same other mainSchema = Identifier.same schema mainSchema := by
    rw [Bool.eq_iff_iff, Identifier.same_iff_folded, Identifier.same_iff_folded, alike]
  rw [contentsAt, contentsAt, same, ownSchema?_congr alike]

theorem Follows.keep (within : Within state after) (visible : after.visible = state.visible)
    (schemas : after.connection.schemas = state.connection.schemas) :
    Follows schema (state.contentsAt schema) state after where
  toWithin := within
  names := by rw [schemas]
  contents other := by
    have same : after.contentsAt other = state.contentsAt other := by
      simp only [contentsAt, visible, ownSchema?, schemas]
    split
    · rename_i alike
      rw [same, contentsAt_congr alike]
    · exact same

theorem Follows.refl (alone : state.Alone) : Follows schema (state.contentsAt schema) state state :=
  .keep (.refl alone) rfl rfl

theorem setUse_schemas (use : Use) :
    (state.setUse use).connection.schemas = state.connection.schemas := by
  unfold setUse
  split <;> rfl

theorem counted_schemas : state.counted.connection.schemas = state.connection.schemas := by
  unfold counted
  split
  · exact setUse_schemas _
  · rfl

theorem changeFile_schemas (change : Contents → Except Fault Contents) :
    (state.changeFile change).2.connection.schemas = state.connection.schemas := by
  unfold changeFile
  repeat' split
  all_goals first | rfl | exact setUse_schemas _

theorem noteRead_follows (alone : state.Alone) (read : String) :
    Follows schema (state.contentsAt schema) state (state.noteRead read) := by
  obtain ⟨within, visible⟩ := noteRead_within alone read
  refine .keep within visible ?_
  unfold noteRead
  split
  · exact counted_schemas
  · rfl

theorem ownSchema?_setOwnSchema (there : (state.ownSchema? schema).isSome = true) (other : String) :
    (state.setOwnSchema schema contents).ownSchema? other =
      if folded other = folded schema then some contents else state.ownSchema? other := by
  -- Schemas keep their names, so the same one is found as before.
  have names : ∀ held : String × Contents,
      (if Identifier.same held.1 schema then (held.1, contents) else held).1 = held.1 := by
    intro held
    split <;> rfl
  have found : (state.setOwnSchema schema contents).ownSchema? other =
      (state.connection.schemas.find? fun held => Identifier.same held.1 other).map fun held =>
        if Identifier.same held.1 schema then contents else held.2 := by
    simp only [ownSchema?, setOwnSchema, withConnection, List.find?_map, Option.map_map,
      Function.comp_def, names]
    congr 1
    funext held
    split <;> rfl
  rw [found]
  by_cases alike : folded other = folded schema
  · rw [if_pos alike]
    rw [← ownSchema?_congr alike, ownSchema?, Option.isSome_map] at there
    obtain ⟨held, here⟩ := Option.isSome_iff_exists.mp there
    have same := List.find?_some here
    have named : Identifier.same held.1 schema = true := by
      rwa [Identifier.same_iff_folded, alike, ← Identifier.same_iff_folded] at same
    rw [here, Option.map_some, if_pos named]
  · rw [if_neg alike, ownSchema?]
    cases here : state.connection.schemas.find? fun held => Identifier.same held.1 other with
    | none => rfl
    | some held =>
        have same := List.find?_some here
        have missed : Identifier.same held.1 schema = false :=
          Identifier.same_eq_false.mpr fun named =>
            alike ((Identifier.same_iff_folded.mp same).symm.trans named)
        simp [missed]

/-- A change that succeeds by itself succeeds, and nothing else changes. -/
theorem change_ok (change : Contents → Except Fault Contents) (alone : state.Alone)
    (there : state.HasSchema schema) (changed : change (state.contentsAt schema) = .ok contents) :
    ∃ after, state.change schema change = (.ok (), after) ∧
      Follows schema contents state after := by
  by_cases main : Identifier.same schema mainSchema = true
  · rw [contentsAt, if_pos main] at changed
    obtain ⟨after, ended, within, visible⟩ := changeFile_ok change alone changed
    have schemas : (state.changeFile change).2.connection.schemas = state.connection.schemas :=
      changeFile_schemas change
    simp only [ended] at schemas
    refine ⟨after, by rw [State.change, if_pos main, ended], within, by rw [schemas], ?_⟩
    intro other
    by_cases alike : folded other = folded schema
    · rw [if_pos alike, contentsAt_congr alike, contentsAt, if_pos main, visible]
    · have elsewhere : Identifier.same other mainSchema = false :=
        Identifier.same_eq_false.mpr fun same =>
          alike (same.trans (Identifier.same_iff_folded.mp main).symm)
      simp [alike, contentsAt, elsewhere, ownSchema?, schemas]
  · have own : (state.ownSchema? schema).isSome = true := there.resolve_left main
    rw [contentsAt, if_neg main] at changed
    obtain ⟨within, visible⟩ := setOwnSchema_within alone schema contents
    refine ⟨state.setOwnSchema schema contents, ?_, within, ?_, ?_⟩
    · simp [State.change, main, changed]
    · simp only [setOwnSchema, withConnection, List.map_map]
      apply List.map_congr_left
      intro held _
      simp only [Function.comp_apply]
      split <;> rfl
    · intro other
      by_cases alike : folded other = folded schema
      · have elsewhere : Identifier.same other mainSchema = false := by
          rw [Bool.not_eq_true] at main
          rw [Identifier.same_eq_false] at main ⊢
          rwa [alike]
        simp [alike, contentsAt, elsewhere, ownSchema?_setOwnSchema own]
      · simp [alike, contentsAt, visible, ownSchema?_setOwnSchema own]

/-- A change that fails by itself fails, and nothing changes. -/
theorem change_error (change : Contents → Except Fault Contents) {fault : Fault}
    (alone : state.Alone) (refused : change (state.contentsAt schema) = .error fault) :
    ∃ after, state.change schema change = (.error fault, after) ∧
      Follows schema (state.contentsAt schema) state after := by
  by_cases main : Identifier.same schema mainSchema = true
  · rw [contentsAt, if_pos main] at refused
    obtain ⟨after, ended, within, visible⟩ := changeFile_error change alone refused
    have schemas : (state.changeFile change).2.connection.schemas = state.connection.schemas :=
      changeFile_schemas change
    simp only [ended] at schemas
    exact ⟨after, by rw [State.change, if_pos main, ended], .keep within visible schemas⟩
  · rw [contentsAt, if_neg main] at refused
    exact ⟨state, by simp [State.change, main, refused], .refl alone⟩

theorem schema?_eq (alone : state.Alone) :
    state.schema? schema = .ok
      (if Identifier.same schema mainSchema then some state.visible
        else state.ownSchema? schema) := by
  unfold schema?
  split
  · rw [seen_alone alone]
    rfl
  · rfl

theorem contentsOf_eq (alone : state.Alone) (object : ObjectName) :
    state.contentsOf object = .ok (state.contentsAt object.schemaName) := by
  rw [contentsOf, schema?_eq alone, contentsAt]
  by_cases main : Identifier.same object.schemaName mainSchema = true <;> simp [main, Except.map]

theorem schemaOf_ok {object : ObjectName} (alone : state.Alone)
    (found : state.schemaOf object = .ok contents) :
    contents = state.contentsAt object.schemaName ∧ state.HasSchema object.schemaName := by
  unfold schemaOf at found
  rw [schema?_eq alone] at found
  by_cases main : Identifier.same object.schemaName mainSchema = true
  · simp [main, bind, Except.bind, pure, Except.pure] at found
    exact ⟨by simp [contentsAt, main, found], .inl main⟩
  · cases own : state.ownSchema? object.schemaName with
    | some held =>
        simp [main, own, bind, Except.bind, pure, Except.pure] at found
        exact ⟨by simp [contentsAt, main, own, found], .inr (by simp [own])⟩
    | none =>
        cases named : object.schema with
        | some schema => simp [main, own, named, bind, Except.bind] at found
        | none =>
            -- without a schema, the name means the main one
            have whole : object.schemaName = mainSchema := by simp [ObjectName.schemaName, named]
            rw [whole] at main
            exact absurd (Identifier.same_refl _) main

theorem hasSchema_of_name {name : String} (member : name ∈ state.connection.schemas.map (·.1))
    (alike : folded name = folded schema) : state.HasSchema schema := by
  obtain ⟨held, within, rfl⟩ := List.mem_map.mp member
  right
  rw [ownSchema?, Option.isSome_map, List.find?_isSome]
  exact ⟨held, within, Identifier.same_iff_folded.mpr alike⟩

/-- Where there is no schema, there is nothing to be found. -/
theorem hasSchema_of_filled (filled : state.contentsAt schema ≠ {}) : state.HasSchema schema := by
  by_contra missing
  obtain ⟨main, own⟩ := not_or.mp missing
  rw [Option.not_isSome_iff_eq_none] at own
  apply filled
  rw [contentsAt, if_neg main, own]
  rfl

theorem hasSchema_of_table {name : String} {table : Table}
    (found : (state.contentsAt schema).table? name = some table) : state.HasSchema schema := by
  apply hasSchema_of_filled
  intro empty
  rw [empty] at found
  cases found

theorem hasSchema_of_view {name : String} {view : View}
    (found : (state.contentsAt schema).view? name = some view) : state.HasSchema schema := by
  apply hasSchema_of_filled
  intro empty
  rw [empty] at found
  cases found

end State

end Rollout.Sqlite
