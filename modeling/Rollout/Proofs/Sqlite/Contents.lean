import Rollout.Proofs.Outcome
import Rollout.Sqlite.Contents

/-!
What a name means in a schema. A change to one table or view leaves the names of others alone.
-/

namespace Rollout.Sqlite

namespace Identifier

variable {first second third : String}

theorem same_iff : same first second = true ↔
    first.toList.map Char.toLower = second.toList.map Char.toLower := by
  simp [same]

theorem same_refl (name : String) : same name name = true := by simp [same]

theorem same_symm (alike : same first second = true) : same second first = true :=
  same_iff.mpr (same_iff.mp alike).symm

theorem same_trans (start : same first second = true) (rest : same second third = true) :
    same first third = true :=
  same_iff.mpr ((same_iff.mp start).trans (same_iff.mp rest))

theorem same_congr (alike : same first second = true) (name : String) :
    same name first = same name second := by
  simp [same, same_iff.mp alike]

theorem same_false_of_same (alike : same first second = true) (other : same second third = false) :
    same first third = false := by
  cases found : same first third with
  | false => rfl
  | true => rw [← other, same_trans (same_symm alike) found]

end Identifier

namespace Contents

/-- The name means the same in both. -/
structure Agree (name : String) (before after : Contents) : Prop where
  table : after.table? name = before.table? name
  view : after.view? name = before.view? name

namespace Agree

variable {name : String} {first second third : Contents}

theorem refl (contents : Contents) : Agree name contents contents := ⟨rfl, rfl⟩

theorem trans (start : Agree name first second) (rest : Agree name second third) :
    Agree name first third :=
  ⟨rest.table.trans start.table, rest.view.trans start.view⟩

end Agree

variable {contents after : Contents} {name : String}

theorem table?_same {table : Table} (found : contents.table? name = some table) :
    Identifier.same table.name name = true := by
  unfold table? at found
  have holds := List.find?_some found
  exact holds

theorem table?_congr {other : String} (alike : Identifier.same name other = true) :
    contents.table? name = contents.table? other := by
  simp only [table?, Identifier.same_congr alike]

theorem addTable_agree {table : Table} (other : Identifier.same table.name name = false) :
    Agree name contents (contents.addTable table) where
  table := by simp [table?, addTable, List.find?_append, other]
  view := rfl

theorem addView_agree {view : View} (other : Identifier.same view.name name = false) :
    Agree name contents (contents.addView view) where
  table := rfl
  view := by simp [view?, addView, List.find?_append, other]

theorem update_agree {table : Table} (other : Identifier.same table.name name = false) :
    Agree name contents (contents.update table) where
  table := by
    simp only [table?, update]
    induction contents.tables with
    | nil => rfl
    | cons first rest ih =>
        -- the table that is replaced does not have the name either
        cases replaced : Identifier.same first.name table.name with
        | true => simp [replaced, other, Identifier.same_false_of_same replaced other, ih]
        | false => simp [replaced, List.find?_cons, ih]
  view := rfl

theorem table?_update {table old : Table} (found : contents.table? name = some old)
    (alike : Identifier.same table.name name = true) :
    (contents.update table).table? name = some table := by
  simp only [table?, update] at found ⊢
  generalize contents.tables = tables at found ⊢
  induction tables with
  | nil => cases found
  | cons first rest ih =>
      cases here : Identifier.same first.name table.name with
      | true => simp [here, alike]
      | false =>
          have elsewhere : Identifier.same first.name name = false := by
            rw [← Identifier.same_congr alike]
            exact here
          rw [List.find?_cons, elsewhere] at found
          simpa [here, elsewhere] using ih found

theorem dropTable_agree {table : Table} (dropped : contents.dropTable table = .ok after)
    (other : Identifier.same table.name name = false) : Agree name contents after := by
  unfold dropTable at dropped
  split at dropped
  · cases dropped
  · obtain rfl := Except.ok.inj dropped
    refine ⟨?_, rfl⟩
    simp only [table?]
    induction contents.tables with
    | nil => rfl
    | cons first rest ih =>
        rw [List.filter_cons, List.find?_cons]
        cases gone : Identifier.same first.name table.name with
        | true => simp [Identifier.same_false_of_same gone other, ih]
        | false => simp [List.find?_cons, ih]

theorem dropView_agree {view : View} (other : Identifier.same view.name name = false) :
    Agree name contents (contents.dropView view) := by
  refine ⟨rfl, ?_⟩
  simp only [view?, dropView]
  induction contents.views with
  | nil => rfl
  | cons first rest ih =>
      rw [List.filter_cons, List.find?_cons]
      cases gone : Identifier.same first.name view.name with
      | true => simp [Identifier.same_false_of_same gone other, ih]
      | false => simp [List.find?_cons, ih]

end Contents

theorem Table.store_name {table after : Table} {given : List (Nat × Value)} {number : Option Value}
    {row : Row} (stored : table.store given number = .ok (row, after)) :
    after.name = table.name := by
  unfold Table.store at stored
  obtain ⟨made, -, stored⟩ := Outcome.bind_eq_ok.mp stored
  -- a check of the row that fails ends with a fault
  dsimp only at stored
  split at stored
  · cases stored
  · split at stored
    · cases stored
    · split at stored
      · cases stored
      · split at stored <;> cases stored
        rfl

namespace Contents

variable {contents after : Contents} {name : String} {insertion : Insertion}

theorem insert_agree {values : List Value} (inserted : contents.insert insertion values = .ok after)
    (other : Identifier.same insertion.table name = false) : Agree name contents after := by
  unfold insert at inserted
  split at inserted
  · cases inserted
  · rename_i table found
    obtain ⟨⟨row, kept⟩, stored, inserted⟩ := Outcome.bind_eq_ok.mp inserted
    dsimp only at inserted
    split at inserted
    · obtain rfl := Except.ok.inj inserted
      refine update_agree ?_
      rw [Table.store_name stored]
      exact Identifier.same_false_of_same (table?_same found) other
    · cases inserted

theorem insertAll_agree {rows : List (List Value)}
    (inserted : rows.foldlM (fun contents values => contents.insert insertion values) contents =
      .ok after)
    (other : Identifier.same insertion.table name = false) : Agree name contents after := by
  induction rows generalizing contents with
  | nil =>
      obtain rfl := Except.ok.inj inserted
      exact .refl _
  | cons values rest ih =>
      rw [List.foldlM_cons] at inserted
      obtain ⟨next, first, later⟩ := Outcome.bind_eq_ok.mp inserted
      exact (insert_agree first other).trans (ih later)

theorem require_table {object : ObjectName} {table : Table}
    (required : contents.require object = .ok table) :
    contents.table? object.name.value = some table := by
  unfold require at required
  split at required
  · rename_i held
    obtain rfl := Except.ok.inj required
    exact held
  · cases required

theorem require_same {object : ObjectName} {table : Table}
    (required : contents.require object = .ok table) :
    Identifier.same table.name object.name.value = true :=
  table?_same (require_table required)

theorem prepare_same {object : ObjectName} {columns : Option (List String)} {width : Nat}
    (prepared : contents.prepare object columns width = .ok insertion) :
    Identifier.same insertion.table object.name.value = true := by
  unfold prepare at prepared
  split at prepared
  · cases prepared
  · obtain ⟨table, required, prepared⟩ := Outcome.bind_eq_ok.mp prepared
    obtain ⟨places, -, prepared⟩ := Outcome.bind_eq_ok.mp prepared
    obtain ⟨-, -, prepared⟩ := Outcome.bind_eq_ok.mp prepared
    obtain rfl := Except.ok.inj prepared
    exact require_same required

theorem dropped_same {object : ObjectName} {table : Table}
    (found : contents.dropped object = .ok table) :
    Identifier.same table.name object.name.value = true := by
  unfold dropped at found
  split at found
  · cases found
  · exact require_same found

theorem droppedView_same {object : ObjectName} {view : View}
    (found : contents.droppedView object = .ok view) :
    Identifier.same view.name object.name.value = true := by
  unfold droppedView at found
  split at found
  · cases found
  · rename_i held
    obtain rfl := Except.ok.inj found
    have holds := List.find?_some held
    exact holds
  · cases found

end Contents

end Rollout.Sqlite
