import Rollout.Plan.Basic
import Rollout.Proofs.Plan.Alike
import Rollout.Proofs.Plan.Planner

/-!
Planning a command on a source tree on disk, and the same command on the same tree at a ref. Where
the tree is listed as it is, both plans are the same but for the ref that is recorded, or there is
no plan.
-/

namespace Rollout

/-- The same step, with its file at a ref. -/
def Step.atRef (ref : Option String) : Step → Step
  | execFile file => execFile { file with ref }
  | shellFile file => shellFile { file with ref }
  | loadCsv file schema table => loadCsv { file with ref } schema table
  | enterFile file => enterFile { file with ref }
  | leaveFile file => leaveFile { file with ref }
  | other => other

/-- The second step is the first one at the ref; or both record the command, as it was written
without the ref and with it. -/
def Step.Alike (ref : Option String) (text written : String) (first second : Step) : Prop :=
  second = first.atRef ref ∨ first = .runCommand text ∧ second = .runCommand written

/-- The same command, written with a ref. -/
def Command.atRef (command : Command) (ref : Option String) (text : String) : Command :=
  { command with ref, text }

/-- Is the argument a path that begins with a mark? -/
def Argument.isMarked : Argument → Bool
  | ⟨_, .path path⟩ => Path.isMarked (Path.dropDots path)
  | ⟨_, .list _⟩ | ⟨_, .raw _⟩ => false

def Command.isMarked (command : Command) : Bool := command.arguments.any Argument.isMarked

theorem Path.isMarked_splitFile {path : String} (unmarked : isMarked path = false) :
    isMarked (splitFile path).1 = false := by
  rcases (splitFile_cases path).2 with whole | alone
  · generalize (splitFile path).1 = directory, (splitFile path).2 = file at whole
    unfold isMarked at unmarked ⊢
    rw [whole] at unmarked
    cases letters : directory.toList with
    | nil => decide
    | cons c rest => simpa [letters] using unmarked
  · rw [alone]
    rfl

theorem Command.not_marked {command : Command} (unmarked : command.isMarked = false)
    {slot path : String} (given : command.value? slot = some (.path path)) :
    Path.isMarked (Path.dropDots path) = false := by
  obtain ⟨⟨slot, value⟩, found, rfl⟩ := Option.map_eq_some_iff.mp given
  have plain := List.any_eq_false.mp unmarked _ (List.mem_of_find?_eq_some found)
  simpa [Argument.isMarked] using plain

namespace Planner

open Draft (Alike)

/-- The planner on another tree, at a ref. -/
def on (planner : Planner) (snapshot : Snapshot) (ref : Option String) : Planner :=
  { planner with snapshot, ref }

/-- The path is that of a file that the tree lists. -/
def Listed (planner : Planner) (path : String) : Prop :=
  ∃ directory name, path = Path.join directory name ∧ planner.snapshot.Lists directory name

/-- Files that are listed are inlined alike. -/
def InlinesAlike (planner : Planner) (ref : Option String) (steps : Step → Step → Prop)
    (inlined others : FileRef → Draft Unit) : Prop :=
  ∀ path, planner.Listed path →
    Alike steps (fun _ => True) (inlined (planner.file path)) (others ⟨path, ref⟩)

variable {planner : Planner} {there : Snapshot} {ref : Option String}
  {steps : Step → Step → Prop} {inlined others : FileRef → Draft Unit}

theorem splitName_alike (command : Command) (named : Option String) (text name : String) :
    Alike steps (fun _ => True) (command.splitName name)
      ((command.atRef named text).splitName name) := by
  unfold Command.splitName
  split
  · exact .done trivial
  · exact .fail _ _

/-- Steps that are planned one after the other are alike if each of them is. -/
theorem eachStep_alike {first second : List Step} (each : List.Forall₂ steps first second) :
    Alike steps (fun _ => True) (Draft.each .step first) (Draft.each .step second) := by
  induction each with
  | nil => exact .done trivial
  | cons here _ ih => exact .andThen (.step here) fun _ _ => ih

theorem planTransaction_alike (command : Command) (named : Option String) (text : String)
    {first second : List Step} (each : List.Forall₂ steps first second) :
    Alike steps (fun _ => True) (planner.planTransaction command first)
      ((planner.on there ref).planTransaction (command.atRef named text) second) := by
  unfold planTransaction
  rw [show (planner.on there ref).autoTransaction = planner.autoTransaction from rfl]
  split
  · exact .fail _ _
  · exact eachStep_alike each

theorem planList_alike (command : Command) (named : Option String) (text : String) :
    Alike steps (fun _ => True) (planList command) (planList (command.atRef named text)) := by
  unfold planList
  rw [show (command.atRef named text).object = command.object from rfl]
  split
  · exact .ok (.cons (.listing _ rfl) .nil) trivial
  · exact .fail _ _

theorem withSteps_alike (command : Command) (named : Option String) {text : String}
    (record : steps (.runCommand command.text) (.runCommand text)) {first second : Draft Unit}
    (drafts : Alike steps (fun _ => True) first second) :
    Alike steps (fun _ => True) (withSteps command first)
      (withSteps (command.atRef named text) second) := by
  cases drafts with
  | error => exact .error _ _ _ _
  | @ok events others value same _ =>
      have filled : events.any (·.isStep) = others.any (·.isStep) := by
        induction same with
        | nil => rfl
        | cons here _ ih =>
            rw [List.any_cons, List.any_cons, ih]
            cases here <;> rfl
      unfold withSteps
      dsimp only
      rw [← filled]
      split
      · exact .ok (.cons (.step record) same) trivial
      · -- no steps are no plan, whatever patterns were tried
        split <;> split <;> exact .error _ _ _ _

section Trees

variable (alike : planner.snapshot.Alike there)

include alike

theorem resolve_alike (kind : FileKind) (verb : Option Verb) (schema item : Option String) :
    Alike steps (fun found => ∀ path ∈ found, planner.Listed path)
      (planner.resolve kind verb schema item)
      ((planner.on there ref).resolve kind verb schema item) := by
  simp only [resolve, Draft.bind_eq, Draft.pure_eq]
  split
  · exact .fail _ _
  · rename_i pattern rendered
    have agree := Plan.expand_agree alike (FileKind.render_rooted rendered)
    refine .andThen (.ofSource agree fun found expanded => ?_) fun _ listed =>
      .andThen (.tried pattern) fun _ _ => .done listed
    intro path member
    obtain ⟨_, directory, name, -, -, joined, lists, -⟩ := Plan.mem_expand expanded member
    exact ⟨directory, name, joined, lists⟩

theorem folderNames_alike {directory : String} (unmarked : Path.isMarked directory = false) :
    Alike steps (fun _ => True) (planner.folderNames directory)
      ((planner.on there ref).folderNames directory) :=
  .ofSource ((alike.folders unmarked Glob.anyName).map _) fun _ _ => trivial

theorem schemas_alike :
    Alike steps (fun _ => True) planner.schemas (planner.on there ref).schemas :=
  folderNames_alike alike (by decide)

theorem itemsOf_alike (items : ItemClass) (schema : String) (found : List String) :
    Alike steps (fun _ => True) (planner.itemsOf items schema found)
      ((planner.on there ref).itemsOf items schema found) := by
  have begun : Path.Begun "schemas/" := ⟨'s', rfl, by decide⟩
  have unmarked (directory : String) :
      Path.isMarked (s!"schemas/{schema}/{directory}") = false :=
    (((begun.append schema).append "/").append directory).not_marked
  cases items
  case type => exact .done trivial
  all_goals exact folderNames_alike alike (unmarked _)

end Trees

section Files

variable (same : ∀ step, steps step (step.atRef ref))
  (inlines : planner.InlinesAlike ref steps inlined others)

include same inlines

theorem planSeedFile_alike (target : Option (String × String)) {path : String}
    (listed : planner.Listed path) :
    Alike steps (fun _ => True) (planner.planSeedFile inlined target path)
      ((planner.on there ref).planSeedFile others target path) := by
  unfold planSeedFile
  split
  · exact .step (same _)
  · exact .step (same _)
  · exact .step (same _)
  · exact inlines path listed
  · exact .fail _ _

theorem planTableSeeds_alike {files : List String} (listed : ∀ path ∈ files, planner.Listed path) :
    Alike steps (fun _ => True) (planner.planTableSeeds inlined files)
      ((planner.on there ref).planTableSeeds others files) :=
  .each fun path member => planSeedFile_alike same inlines _ (listed path member)

end Files

variable (alike : planner.snapshot.Alike there) (same : ∀ step, steps step (step.atRef ref))

include alike same

theorem emitFound_alike (kind : FileKind) (verb : Verb) (schema item : Option String) :
    Alike steps (fun found => ∀ path ∈ found, planner.Listed path)
      (planner.emitFound kind verb schema item)
      ((planner.on there ref).emitFound kind verb schema item) :=
  .andThen (resolve_alike alike kind verb schema item) fun _ listed =>
    .andThen (.each fun _ _ => .step (same _)) fun _ _ => .done listed

theorem emit_alike (kind : FileKind) (verb : Verb) (schema item : Option String) :
    Alike steps (fun _ => True) (planner.emit kind verb schema item)
      ((planner.on there ref).emit kind verb schema item) :=
  .andThen (emitFound_alike alike same kind verb schema item) fun _ _ => .done trivial

theorem planSchemas_alike (verb : Verb) (schemas : List String) :
    Alike steps (fun _ => True) (planner.planSchemas verb schemas)
      ((planner.on there ref).planSchemas verb schemas) := by
  apply Alike.each
  intro schema _
  split
  · exact emit_alike alike same _ _ _ _
  · apply Alike.andThen (emitFound_alike alike same _ _ _ _)
    intro created _
    split
    · exact emit_alike alike same _ _ _ _
    · exact .done trivial

theorem attach_alike (items : ItemClass) (schema item : String) :
    Alike steps (fun _ => True) (planner.attach items schema item)
      ((planner.on there ref).attach items schema item) :=
  .each fun _ _ => emit_alike alike same _ _ _ _

theorem planForeignKeys_alike (verb : Verb) (schemas : List String) :
    Alike steps (fun _ => True) (planner.planForeignKeys verb schemas)
      ((planner.on there ref).planForeignKeys verb schemas) :=
  .each fun _ _ => emit_alike alike same _ _ _ _

theorem planSchemaItems_alike (verb : Verb) (items : ItemClass) (schema : String) :
    Alike steps (fun _ => True) (planner.planSchemaItems verb items schema)
      ((planner.on there ref).planSchemaItems verb items schema) := by
  unfold planSchemaItems
  split
  · exact emit_alike alike same _ _ _ _
  · apply Alike.andThen (emitFound_alike alike same _ _ _ _)
    intro found _
    split
    · exact .andThen (itemsOf_alike alike items schema found) fun _ _ =>
        .each fun item _ => attach_alike alike same items schema item
    · exact .done trivial

theorem planAllItems_alike (command : Command) (named : Option String) (text : String)
    (verb : Verb) (items : ItemClass) :
    Alike steps (fun _ => True) (planner.planAllItems command verb items)
      ((planner.on there ref).planAllItems (command.atRef named text) verb items) := by
  apply Alike.andThen (schemas_alike alike)
  intro all _
  have keys : Alike steps (fun _ => True)
      (planner.planForeignKeys verb (command.filterSchemas all))
      ((planner.on there ref).planForeignKeys verb (command.filterSchemas all)) :=
    planForeignKeys_alike alike same verb _
  have each : Alike steps (fun _ => True)
      (Draft.each (planner.planSchemaItems verb items) (command.filterSchemas all))
      (Draft.each ((planner.on there ref).planSchemaItems verb items)
        (command.filterSchemas all)) :=
    .each fun schema _ => planSchemaItems_alike alike same verb items schema
  have afterKeys : Alike steps (fun _ => True)
      (if items = .table ∧ verb = .create then
        planner.planForeignKeys verb (command.filterSchemas all) else pure ())
      (if items = .table ∧ verb = .create then
        (planner.on there ref).planForeignKeys verb (command.filterSchemas all) else pure ()) := by
    split
    · exact keys
    · exact .done trivial
  dsimp only
  split
  · exact .andThen keys fun _ _ => .andThen each fun _ _ => afterKeys
  · exact .andThen each fun _ _ => afterKeys

theorem attachFound_alike (items : ItemClass) (found : List String) :
    Alike steps (fun _ => True) (planner.attachFound items found)
      ((planner.on there ref).attachFound items found) := by
  apply Alike.each
  intro path _
  split
  · exact attach_alike alike same items _ _
  · exact .done trivial

theorem planListedItems_alike (command : Command) (named : Option String) (text : String)
    (verb : Verb) (items : ItemClass) :
    Alike steps (fun _ => True) (planner.planListedItems command verb items)
      ((planner.on there ref).planListedItems (command.atRef named text) verb items) := by
  apply Alike.each
  intro name _
  apply Alike.andThen (splitName_alike command named text name)
  rintro ⟨schema, item⟩ _
  dsimp only
  split
  · exact emit_alike alike same _ _ _ _
  · apply Alike.andThen (emitFound_alike alike same _ _ _ _)
    intro found _
    split
    · exact attachFound_alike alike same items found
    · exact .done trivial

theorem planOn_alike (command : Command) (named : Option String) (text : String) (verb : Verb)
    (kinds : List FileKind) :
    Alike steps (fun _ => True) (planner.planOn command verb kinds)
      ((planner.on there ref).planOn (command.atRef named text) verb kinds) := by
  unfold planOn
  rw [show (command.atRef named text).clause = command.clause from rfl,
    show (command.atRef named text).itemNames = command.itemNames from rfl]
  split
  · exact .fail _ _
  · apply Alike.each
    intro name _
    apply Alike.andThen (splitName_alike command named text name)
    rintro ⟨schema, item⟩ _
    exact .each fun kind _ => emit_alike alike same _ _ _ _

theorem planObjects_alike (command : Command) (named : Option String) (text : String)
    (verb : Verb) :
    Alike steps (fun _ => True) (planner.planObjects command verb)
      ((planner.on there ref).planObjects (command.atRef named text) verb) := by
  unfold planObjects
  rw [show (command.atRef named text).object = command.object from rfl]
  -- the objects in the order in which they are told apart, `none` first
  split
  · exact .fail _ _
  · exact emit_alike alike same _ _ _ _
  · exact emit_alike alike same _ _ _ _
  · exact emit_alike alike same _ _ _ _
  · exact .andThen (schemas_alike alike) fun all _ => planForeignKeys_alike alike same verb all
  · exact .andThen (schemas_alike alike) fun all _ => planSchemas_alike alike same verb _
  · exact planSchemas_alike alike same verb _
  · exact planOn_alike alike same command named text verb _
  · exact planOn_alike alike same command named text verb _
  · exact planOn_alike alike same command named text verb _
  · split
    · exact planAllItems_alike alike same command named text verb _
    · exact planListedItems_alike alike same command named text verb _
    · exact .fail _ _

theorem planScript_alike (command : Command) (named : Option String) (text : String)
    (unmarked : command.isMarked = false) :
    Alike steps (fun _ => True) (planner.planScript command)
      ((planner.on there ref).planScript (command.atRef named text)) := by
  unfold planScript
  rw [show (command.atRef named text).value? "sql" = command.value? "sql" from rfl]
  split
  · exact .step (same (.execScript _))
  · rename_i path given
    apply Alike.andThen (.tried _)
    intro _ _
    have plain := Path.isMarked_splitFile (command.not_marked unmarked given)
    apply Alike.andThen (.ofSource (alike.files plain _) fun _ _ => trivial)
    intro found _
    split
    · exact .step (same _)
    · exact .done trivial
  · exact .fail _ _

section Seeds

variable (inlines : planner.InlinesAlike ref steps inlined others)

include inlines

theorem planSchemaSeeds_alike (command : Command) (named : Option String) (text schema : String) :
    Alike steps (fun _ => True) (planner.planSchemaSeeds inlined command schema)
      ((planner.on there ref).planSchemaSeeds others (command.atRef named text) schema) :=
  .andThen (resolve_alike alike _ _ _ _) fun _ listed =>
    .each fun path member =>
      planSeedFile_alike same inlines _ (listed path (Command.mem_selectSeeds member))

theorem planSeeds_alike (command : Command) (named : Option String) (text : String)
    (unmarked : command.isMarked = false) :
    Alike steps (fun _ => True) (planner.planSeeds inlined command)
      ((planner.on there ref).planSeeds others (command.atRef named text)) := by
  unfold planSeeds
  rw [show (command.atRef named text).object = command.object from rfl]
  -- the objects in the order in which they are told apart
  split
  · exact .andThen (resolve_alike alike _ _ _ _) fun _ listed => .each fun path member =>
      planSeedFile_alike same inlines _ (listed path (Command.mem_selectSeeds member))
  · exact .each fun schema _ => planSchemaSeeds_alike alike same inlines command named text schema
  · exact .andThen (schemas_alike alike) fun all _ => .each fun schema _ =>
      planSchemaSeeds_alike alike same inlines command named text schema
  · apply Alike.each
    intro name _
    apply Alike.andThen (splitName_alike command named text name)
    rintro ⟨schema, item⟩ _
    exact .andThen (resolve_alike alike _ _ _ _) fun _ listed =>
      planTableSeeds_alike same inlines fun path member =>
        listed path (Command.mem_selectSeeds member)
  · apply Alike.andThen (schemas_alike alike)
    intro all _
    apply Alike.each
    intro schema _
    exact .andThen (resolve_alike alike _ _ _ _) fun _ listed =>
      planTableSeeds_alike same inlines listed
  · rw [show (command.atRef named text).value? "cmd" = command.value? "cmd" from rfl]
    split
    · exact .step (same (.shell _ _))
    · exact .fail _ _
  · exact planScript_alike alike same command named text unmarked
  · exact .fail _ _

theorem planWith_alike (command : Command) (named : Option String) {text : String}
    (unmarked : command.isMarked = false)
    (record : steps (.runCommand command.text) (.runCommand text)) :
    Alike steps (fun _ => True) (planner.planWith inlined command)
      ((planner.on there ref).planWith others (command.atRef named text)) := by
  have commits : List.Forall₂ steps [.runCommand command.text, .commit]
      [.runCommand text, .commit] :=
    .cons record (.cons (same .commit) .nil)
  have rollsBack : List.Forall₂ steps [.runCommand command.text, .rollback]
      [.runCommand text, .rollback] :=
    .cons record (.cons (same .rollback) .nil)
  unfold planWith
  rw [show (command.atRef named text).root = command.root from rfl]
  split
  · exact planTransaction_alike command named text (.cons (same .begin) .nil)
  · exact planTransaction_alike command named text commits
  · exact planTransaction_alike command named text rollsBack
  · exact planList_alike command named text
  · exact withSteps_alike command named record
      (planSeeds_alike alike same inlines command named text unmarked)
  · exact withSteps_alike command named record
      (planScript_alike alike same command named text unmarked)
  · split
    · exact withSteps_alike command named record
        (planObjects_alike alike same command named text _)
    · exact .fail _ _

end Seeds

/-- No file of commands has one with a path that begins with a mark. -/
def Unmarked (planner : Planner) : Prop :=
  ∀ path text commands, planner.snapshot.read path = .ok text →
    Command.parse planner.grammar text = .ok commands →
      ∀ command ∈ commands, command.isMarked = false

/-- Files of commands are inlined alike, at any depth. -/
theorem inlineFile_alike (unmarked : planner.Unmarked) (depth : Nat) :
    planner.InlinesAlike ref steps (planner.inlineFile depth)
      ((planner.on there ref).inlineFile depth) := by
  induction depth with
  | zero => exact fun path _ => .fail _ _
  | succ depth ih =>
      intro path listed
      obtain ⟨directory, name, joined, lists⟩ := listed
      have agree : Outcome.Agree (planner.snapshot.read path) (there.read path) :=
        joined ▸ alike.read directory name lists
      unfold inlineFile
      simp only [Draft.bind_eq]
      refine .andThen (.ofSource agree fun text read => read) fun text read => ?_
      rw [show (planner.on there ref).grammar = planner.grammar from rfl]
      split
      · exact .fail _ _
      · rename_i commands parsed
        split
        · exact .fail _ _
        · refine .andThen (.step (same _)) fun _ _ =>
            .andThen (.each fun command member => ?_) fun _ _ => .step (same _)
          exact planWith_alike alike same ih command command.ref
            (unmarked path text commands read parsed command member)
            (same (.runCommand command.text))

/-- A command is planned alike on a tree that is alike, if no path begins with a mark. -/
theorem plan_alike (unmarked : planner.Unmarked) (command : Command) (named : Option String)
    {text : String} (plain : command.isMarked = false)
    (record : steps (.runCommand command.text) (.runCommand text)) :
    Alike steps (fun _ => True) (planner.plan command)
      ((planner.on there ref).plan (command.atRef named text)) :=
  planWith_alike alike same (inlineFile_alike alike same unmarked depthLimit) command named plain
    record

end Planner

namespace Plan

variable {State : Type} {steps : Step → Step → Prop}

/-- Both plans come to an end, with steps that are alike one by one, and leave the database as the
other does; or neither comes to an end. -/
def Alike (steps : Step → Step → Prop) (first second : Plan × State) : Prop :=
  first.1.outcome = .ok () ∧ second.1.outcome = .ok () ∧
      List.Forall₂ steps first.1.steps second.1.steps ∧ first.2 = second.2 ∨
    ∃ fault other, first.1.outcome = .error fault ∧ second.1.outcome = .error other

theorem settle_failed (events : List Draft.Event) (error : PlanError)
    (database : Option (Database State)) (state : State) :
    ∃ fault, (settle database (.error error) events state).1.outcome = .error fault := by
  induction events generalizing state database with
  | nil => exact ⟨error, rfl⟩
  | cons event rest ih =>
      cases event with
      | tried pattern => exact ih database state
      | step step => exact ih database state
      | listing kind command =>
          cases database with
          | none => exact ⟨_, rfl⟩
          | some database =>
              unfold settle
              dsimp only
              split
              · exact ⟨_, rfl⟩
              · exact ih (some database) _

theorem settle_alike {events others : List Draft.Event}
    (lists : ∀ kind schemas, steps (.list kind schemas) (.list kind schemas))
    (alike : List.Forall₂ (Draft.Event.Alike steps) events others)
    (database : Option (Database State)) (state : State) :
    Alike steps (settle database (.ok ()) events state)
      (settle database (.ok ()) others state) := by
  induction alike generalizing state database with
  | nil => exact .inl ⟨rfl, rfl, .nil, rfl⟩
  | cons here _ ih =>
      cases here with
      | tried pattern => exact ih database state
      | step same =>
          refine (ih database state).imp_left ?_
          rintro ⟨one, two, steps, states⟩
          exact ⟨one, two, .cons same steps, states⟩
      | @listing kind command other same =>
          cases database with
          | none => exact .inr ⟨_, _, rfl, rfl⟩
          | some database =>
              have schemas (names : List String) :
                  listedSchemas kind other names = listedSchemas kind command names := by
                unfold listedSchemas
                rw [same]
              unfold settle
              dsimp only
              split
              · exact .inr ⟨_, _, rfl, rfl⟩
              · refine (ih (some database) _).imp_left ?_
                rintro ⟨one, two, steps, states⟩
                rw [schemas]
                exact ⟨one, two, .cons (lists kind _) steps, states⟩

end Plan

/-- Drafts that are alike come to plans that are alike. -/
theorem Draft.Alike.settle {State : Type} {steps : Step → Step → Prop}
    (lists : ∀ kind schemas, steps (.list kind schemas) (.list kind schemas))
    {first second : Draft Unit} (alike : Draft.Alike steps (fun _ => True) first second)
    (database : Option (Database State)) (state : State) :
    Plan.Alike steps (first.settle database state) (second.settle database state) := by
  cases alike with
  | ok events _ => exact Plan.settle_alike lists events database state
  | error first second fault other =>
      obtain ⟨early, failed⟩ := Plan.settle_failed first fault database state
      obtain ⟨late, fails⟩ := Plan.settle_failed second other database state
      exact .inr ⟨early, late, failed, fails⟩

end Rollout
