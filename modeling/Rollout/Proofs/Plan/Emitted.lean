import Rollout.Proofs.Plan.Attachments
import Rollout.Proofs.Plan.Exact

/-!
The steps that plans emit after the command itself. In a tree whose folders have no names of
patterns, planning all items of a class comes to its end, and what it plans is put together from the
files that are found.
-/

namespace Rollout

namespace Draft

variable {Value Next : Type}

theorem done_andThen (value : Value) (next : Value → Draft Next) :
    (done value).andThen next = next value := rfl

theorem each_single (draft : Value → Draft Unit) (value : Value) :
    each draft [value] = draft value := by
  unfold each each andThen done
  cases draft value with
  | mk events outcome => cases outcome <;> simp

theorem Closed.singleton {event : Event} (other : ∀ kind command, event ≠ .listing kind command) :
    Closed [event] :=
  fun kind command member => other kind command (List.mem_singleton.mp member).symm

/-- The draft comes to its end with the value and the steps, and leaves no listing open. -/
structure Makes (draft : Draft Value) (value : Value) (steps : List Step) : Prop where
  ended : draft.outcome = .ok value
  closed : Closed draft.events
  planned : stepsOf draft.events = steps

namespace Makes

variable {value : Value} {result : Next} {steps more : List Step}

theorem done (value : Value) : Makes (Draft.done value) value [] :=
  ⟨rfl, fun _ _ => List.not_mem_nil, rfl⟩

theorem ofSource (value : Value) : Makes (Draft.ofSource (.ok value)) value [] :=
  ⟨rfl, fun _ _ => List.not_mem_nil, rfl⟩

theorem step (step : Step) : Makes (Draft.step step) () [step] :=
  ⟨rfl, .singleton (by simp), rfl⟩

theorem andThen {draft : Draft Value} {next : Value → Draft Next}
    (first : Makes draft value steps) (rest : Makes (next value) result more) :
    Makes (draft.andThen next) result (steps ++ more) := by
  obtain ⟨ended, closed, rfl⟩ := first
  obtain ⟨last, quiet, rfl⟩ := rest
  unfold Draft.andThen
  rw [ended]
  exact ⟨last, closed.append quiet, List.filterMap_append⟩

theorem thenDone {draft : Draft Value} (makes : Makes draft value steps) :
    Makes (draft.andThen fun _ => Draft.done ()) () steps := by
  have whole : Makes (draft.andThen fun _ => Draft.done ()) () (steps ++ []) :=
    makes.andThen (done ())
  rwa [List.append_nil] at whole

theorem each {draft : Value → Draft Unit} {steps : Value → List Step} {list : List Value}
    (all : ∀ value ∈ list, Makes (draft value) () (steps value)) :
    Makes (Draft.each draft list) () (list.flatMap steps) := by
  induction list with
  | nil => exact done ()
  | cons value rest ih =>
      obtain ⟨here, later⟩ := List.forall_mem_cons.mp all
      exact andThen here (ih later)

end Makes

end Draft

namespace Plan

/-- The plan comes to the steps after the command itself, or to none because nothing was found. -/
inductive Emits (command : Command) (plan : Plan) : List Step → Prop where
  | steps {steps : List Step} (ended : plan.outcome = .ok ())
      (planned : plan.steps = .runCommand command.text :: steps) : Emits command plan steps
  | nothing {error : PlanError} (failed : plan.outcome = .error error)
      (empty : error.isEmpty = true) : Emits command plan []

end Plan

namespace Planner

variable {planner : Planner} {command : Command} {draft : Draft Unit} {steps : List Step}
  {State : Type}

theorem withSteps_emits (makes : draft.Makes () steps) (database : Option (Database State))
    (state : State) :
    Plan.Emits command ((withSteps command draft).settle database state).1 steps := by
  obtain ⟨ended, closed, rfl⟩ := makes
  have whole : Draft.Closed (withSteps command draft).events := by
    have itself : Draft.Closed [.step (.runCommand command.text)] := .singleton (by simp)
    rw [withSteps_events]
    exact itself.append closed
  obtain ⟨planned, outcome⟩ :=
    Plan.settle_closed whole database (withSteps command draft).outcome state
  by_cases filled : draft.events.any (·.isStep) = true
  · refine .steps (outcome.trans (withSteps_ok ended filled)) (planned.trans ?_)
    rw [withSteps_events]
    rfl
  -- a draft without a step fails for want of files, or of schemas to find them in
  · have none : Draft.stepsOf draft.events = [] := by
      refine List.eq_nil_iff_forall_not_mem.mpr fun step member => filled ?_
      exact List.any_eq_true.mpr ⟨_, Draft.mem_stepsOf.mp member, rfl⟩
    have failed : ∃ error : PlanError, (withSteps command draft).outcome = .error error ∧
        error.isEmpty = true := by
      unfold withSteps
      dsimp only
      rw [ended]
      dsimp only
      rw [if_neg filled]
      split <;> exact ⟨_, rfl, rfl⟩
    obtain ⟨error, failed, empty⟩ := failed
    rw [none]
    exact .nothing (outcome.trans failed) empty

theorem plan_emits {verb : Verb} (root : command.root = verb.name)
    (makes : (planner.planObjects command verb).Makes () steps)
    (database : Option (Database State)) (state : State) :
    Plan.Emits command ((planner.plan command).settle database state).1 steps := by
  rw [plan, planWith_verb _ root]
  exact withSteps_emits makes database state

/-- The step that runs a file. -/
def execs (planner : Planner) (path : String) : Step := .execFile (planner.file path)

theorem execs_inj {first second : String} (same : planner.execs first = planner.execs second) :
    first = second := by
  cases same
  rfl

/-- The files that are found of a kind. -/
def found (planner : Planner) (kind : FileKind) (verb : Verb) (schema : String)
    (item : Option String) : List String :=
  match (planner.emitFound kind verb (some schema) item).outcome with
  | .ok paths => paths
  | .error _ => []

/-- The steps for what belongs to an item. -/
def attached (planner : Planner) (items : ItemClass) (schema item : String) : List Step :=
  items.attachments.flatMap fun kind =>
    (planner.found kind .create schema (some item)).map planner.execs

/-- The items of a schema to which anything may belong. -/
def owners (planner : Planner) (items : ItemClass) (schema : String) : List String :=
  match (planner.itemsOf items schema
      (planner.found items.primary .create schema (some items.anyItem))).outcome with
  | .ok names => names
  | .error _ => []

/-- The steps for all items of a schema. -/
def itemSteps (planner : Planner) (verb : Verb) (items : ItemClass) (schema : String) :
    List Step :=
  let found := planner.found (items.planned verb) verb schema (some items.anyItem)
  found.map planner.execs ++
    if verb = .create ∧ found ≠ [] then
      (planner.owners items schema).flatMap (planner.attached items schema)
    else []

def keySteps (planner : Planner) (verb : Verb) (schemas : List String) : List Step :=
  schemas.flatMap fun schema =>
    (planner.found .foreignKeys verb schema none).map planner.execs

/-- The steps for all items of some schemas. Those for foreign keys stand around them. -/
def allSteps (planner : Planner) (verb : Verb) (items : ItemClass) (schemas : List String) :
    List Step :=
  (if items = .table ∧ verb = .drop then planner.keySteps verb schemas else []) ++
    (schemas.flatMap (planner.itemSteps verb items) ++
      if items = .table ∧ verb = .create then planner.keySteps verb schemas else [])

theorem Stands.isFile {snapshot : Snapshot} {names : List String} {name : String}
    (stands : Stands snapshot names name) : snapshot.IsFile (names ++ [name]) := by
  obtain ⟨content, led⟩ := stands.hasFile
  rw [stands.steps] at led
  exact ⟨content, led⟩

theorem Stands.of_isFile {snapshot : Snapshot} (tidy : snapshot.Tidy) {names : List String}
    {name : String} (isFile : snapshot.IsFile (names ++ [name]))
    (shows : snapshot.Shows (Path.ofSegments (names ++ [name]))) : Stands snapshot names name := by
  obtain ⟨content, led⟩ := id isFile
  have proper : ∀ part ∈ names ++ [name], Path.IsName part :=
    fun part member => (tidy.names_holdable led part member).1
  obtain ⟨named, last⟩ := List.forall_mem_append.mp proper
  exact ⟨named, last name List.mem_cons_self, (Snapshot.hasFile_iff proper).mpr isFile, shows⟩

section Found

variable {kind : FileKind} {verb : Verb} {schema : String} {item : Option String}
  {segments : List String} {file : String} {items : ItemClass}

variable (tidy : planner.snapshot.Tidy) (orderly : planner.snapshot.Orderly)

include tidy orderly

theorem expand_found (seeks : Seeks kind verb schema item segments file) :
    Plan.expand planner.snapshot (Path.ofSegments (segments ++ [file])) =
      .ok (planner.found kind verb schema item) := by
  obtain ⟨paths, expanded⟩ :=
    Plan.expand_ok tidy orderly (Plan.straight_ofSegments seeks.holdable seeks.free)
  rw [expanded, found, emitFound_eq seeks.rendered expanded]

theorem found_ascends (seeks : Seeks kind verb schema item segments file) :
    (planner.found kind verb schema item).Pairwise (· < ·) :=
  Plan.expand_ascends tidy orderly (Plan.straight_ofSegments seeks.holdable seeks.free)
    (expand_found tidy orderly seeks)

theorem mem_found_iff (seeks : Seeks kind verb schema item segments file) {path : String} :
    path ∈ planner.found kind verb schema item ↔ Hits planner.snapshot segments file path := by
  obtain ⟨paths, emitted, -, hits⟩ := emitFound_hits tidy orderly seeks
  rw [found, emitted]
  exact hits path

theorem emitFound_makes (seeks : Seeks kind verb schema item segments file) :
    (planner.emitFound kind verb (some schema) item).Makes (planner.found kind verb schema item)
      ((planner.found kind verb schema item).map planner.execs) := by
  rw [emitFound_eq seeks.rendered (expand_found tidy orderly seeks)]
  refine ⟨rfl, fun kind command member => ?_, ?_⟩
  · simp at member
  · unfold Draft.stepsOf
    rw [List.filterMap_cons_none rfl, List.filterMap_map]
    exact congrFun (List.filterMap_eq_map (f := planner.execs)) _

theorem emit_makes (seeks : Seeks kind verb schema item segments file) :
    (planner.emit kind verb (some schema) item).Makes ()
      ((planner.found kind verb schema item).map planner.execs) :=
  (emitFound_makes tidy orderly seeks).thenDone

/-- Granting and revoking runs the files of privileges. Creating and dropping runs the primary files,
and goes on with them. -/
theorem emitPlanned_makes {items : ItemClass} {item : String} {more : List Step}
    (seeks : Seeks (items.planned verb) verb schema (some item) segments file)
    {next : List String → Draft Unit}
    (rest : verb.isPrivileges = false →
      (next (planner.found (items.planned verb) verb schema (some item))).Makes () more)
    (only : verb.isPrivileges = true → more = []) :
    (if verb.isPrivileges then planner.emit items.privileges verb (some schema) (some item)
      else (planner.emitFound items.primary verb (some schema) (some item)).andThen next).Makes ()
        ((planner.found (items.planned verb) verb schema (some item)).map planner.execs ++
          more) := by
  cases privileges : verb.isPrivileges with
  | true =>
      have planned : items.planned verb = items.privileges := by
        simp [ItemClass.planned, privileges]
      rw [if_pos rfl, only privileges, List.append_nil, ← planned]
      exact emit_makes tidy orderly seeks
  | false =>
      have planned : items.planned verb = items.primary := by
        simp [ItemClass.planned, privileges]
      rw [if_neg Bool.false_ne_true, ← planned]
      exact (emitFound_makes tidy orderly seeks).andThen (rest privileges)

theorem planForeignKeys_makes {schemas : List String} (fits : ∀ schema ∈ schemas, Literal schema) :
    (planner.planForeignKeys verb schemas).Makes () (planner.keySteps verb schemas) :=
  .each fun schema member =>
    emit_makes tidy orderly (seeks_foreignKeys (fits schema member).sought none)

theorem attach_makes (schemaFits : Literal schema) {item : String} (itemFits : Literal item) :
    (planner.attach items schema item).Makes () (planner.attached items schema item) :=
  .each fun _ member => emit_makes tidy orderly
    (seeks_spot (ItemClass.attachment_mem member) schemaFits.sought itemFits.sought)

variable (typed : items = .type → planner.snapshot.Literal)

include typed

/-- The items that a schema holds can be listed; they have no names of patterns. -/
theorem itemsOf_makes (schemaFits : Literal schema) :
    (planner.itemsOf items schema
        (planner.found items.primary .create schema (some items.anyItem))).Makes
      (planner.owners items schema) [] ∧
      ∀ item ∈ planner.owners items schema, Literal item := by
  have seeks : Seeks items.primary .create schema (some items.anyItem) _ _ :=
    seeks_spot items.primary_mem schemaFits.sought Asks.anyItem.sought
  by_cases types : items = .type
  · subst types
    refine ⟨.done _, fun item member => ?_⟩
    exact (itemsOf_asked tidy orderly (typed rfl) schemaFits
      (fun path => (mem_found_iff tidy orderly seeks).mp) rfl member).1
  · obtain ⟨all, listed, fits⟩ := itemsOf_spec tidy orderly types schemaFits
      (planner.found items.primary .create schema (some items.anyItem))
    have same : planner.owners items schema = all := by
      unfold owners
      rw [listed]
      rfl
    rw [listed, same]
    exact ⟨.ofSource all, fits⟩

theorem planSchemaItems_makes (schemaFits : Literal schema) :
    (planner.planSchemaItems verb items schema).Makes () (planner.itemSteps verb items schema) := by
  have seeks : Seeks (items.planned verb) verb schema (some items.anyItem) _ _ :=
    seeks_spot (items.planned_mem verb) schemaFits.sought Asks.anyItem.sought
  unfold planSchemaItems itemSteps
  refine emitPlanned_makes tidy orderly seeks (fun _ => ?_) fun privileges => ?_
  · split <;> rename_i creating
    · obtain ⟨rfl, -⟩ := creating
      obtain ⟨listed, fits⟩ := itemsOf_makes tidy orderly typed schemaFits
      exact listed.andThen (.each fun item member =>
        attach_makes tidy orderly schemaFits (fits item member))
    · exact .done ()
  · refine if_neg fun creating => ?_
    rw [creating.1] at privileges
    cases privileges

/-- What is planned for all items depends on the schemas that are left. -/
theorem planAllItems_makes {all : List String} (listed : planner.schemas = .ofSource (.ok all))
    (fits : ∀ schema ∈ all, Literal schema) (command : Command) (verb : Verb) :
    (planner.planAllItems command verb items).Makes ()
      (planner.allSteps verb items (command.filterSchemas all)) := by
  have left : ∀ schema ∈ command.filterSchemas all, Literal schema :=
    fun schema member => fits schema (Command.mem_filterSchemas member)
  have keys : (planner.planForeignKeys verb (command.filterSchemas all)).Makes () _ :=
    planForeignKeys_makes tidy orderly left
  have each : (Draft.each (planner.planSchemaItems verb items)
      (command.filterSchemas all)).Makes () _ :=
    .each fun schema member => planSchemaItems_makes tidy orderly typed (left schema member)
  unfold planAllItems allSteps
  simp only [listed, Draft.bind_eq, Draft.ofSource_andThen]
  -- what is dropped is not created, so foreign keys stand at one end
  split <;> rename_i dropping
  · have creating : ¬ (items = .table ∧ verb = .create) := by simp [dropping.2]
    rw [if_neg creating, if_neg creating]
    exact keys.andThen (each.andThen (.done ()))
  · rw [List.nil_append]
    refine each.andThen ?_
    split
    · exact keys
    · exact .done ()

theorem plan_allItems_emits {command : Command} (root : command.root = verb.name) {object : String}
    (named : command.object = some object)
    (plural : ItemClass.ofObject? object = some (items, true)) {all : List String}
    (listed : planner.schemas = .ofSource (.ok all)) (fits : ∀ schema ∈ all, Literal schema)
    (database : Option (Database State)) (state : State) :
    Plan.Emits command ((planner.plan command).settle database state).1
      (planner.allSteps verb items (command.filterSchemas all)) := by
  refine plan_emits root ?_ database state
  rw [planObjects_items named plural, if_pos rfl]
  exact planAllItems_makes tidy orderly typed listed fits command verb

end Found

end Planner

end Rollout
