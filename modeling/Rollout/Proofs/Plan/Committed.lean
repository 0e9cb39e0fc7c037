import Rollout.Grammar.Builtin
import Rollout.Proofs.Plan.Twins

/-!
A working directory that is committed as it stands. Opened on disk and at the ref, it lists alike
just as far as its names are listed as they are, and reads alike; and where all names are, commands
come to the same plans.
-/

namespace Rollout

namespace Folder

/-- The texts of all files, at any depth. -/
def texts : Folder → List String
  | nil => []
  | file _ (.text text) beside => text :: texts beside
  | file _ (.binary _) beside => texts beside
  | folder _ below beside => texts below ++ texts beside

/-- The texts of a file, or of all files in a folder. -/
def nodeTexts : Node → List String
  | .file (.text text) => [text]
  | .file (.binary _) => []
  | .folder below => below.texts

theorem mem_texts {top : Folder} {name text : String} {node : Node}
    (found : top.find? name = some node) (member : text ∈ nodeTexts node) : text ∈ top.texts := by
  refine find_induction (motive := fun top => text ∈ top.texts) found ?_ ?_ ?_
  · intro beside
    cases node with
    | folder below => exact List.mem_append_left _ member
    | file content =>
        cases content with
        | text other => exact List.mem_cons.mpr (.inl (List.mem_singleton.mp member))
        | binary bytes => cases member
  · intro first content beside ih
    cases content with
    | text other => exact List.mem_cons_of_mem _ ih
    | binary bytes => exact ih
  · exact fun first below beside ih => List.mem_append_right _ ih

theorem text_of_walk {names : List String} {top : Folder} {text : String}
    (led : (Node.folder top).walk names = .node (.file (.text text))) : text ∈ top.texts := by
  refine Node.walk_induction (motive := fun _ top => text ∈ top.texts) led nofun ?_ ?_
  · rintro name _ top ⟨⟩ found
    exact mem_texts found List.mem_cons_self
  · exact fun name rest top inside found ih => mem_texts found ih

/-- No text in the folder is one of commands with a path that begins with a mark. -/
def Unmarked (grammar : Grammar) (top : Folder) : Prop :=
  ∀ text ∈ top.texts, ∀ commands, Command.parse grammar text = .ok commands →
    ∀ command ∈ commands, command.isMarked = false

/-- Is the text not one of commands with a path that begins with a mark? -/
def isUnmarked (grammar : Grammar) (text : String) : Bool :=
  match Command.parse grammar text with
  | .ok commands => commands.all fun command => !command.isMarked
  | .error _ => true

theorem isUnmarked_iff {grammar : Grammar} {text : String} :
    isUnmarked grammar text = true ↔ ∀ commands, Command.parse grammar text = .ok commands →
      ∀ command ∈ commands, command.isMarked = false := by
  unfold isUnmarked
  cases Command.parse grammar text <;> simp

instance (grammar : Grammar) (top : Folder) : Decidable (top.Unmarked grammar) :=
  decidable_of_iff (∀ text ∈ top.texts, isUnmarked grammar text = true)
    (forall₂_congr fun _ _ => isUnmarked_iff)

end Folder

namespace Path

/-- A path without segments that lead nowhere or above, and without a mark at its start. -/
structure IsProper (path : String) : Prop where
  segments : path = "" ∨ ∀ segment ∈ segments path, IsName segment
  unmarked : isMarked path = false

theorem IsProper.inside {path : String} (proper : IsProper path) : Snapshot.Inside path := by
  rcases proper.segments with rfl | names
  · exact ⟨by decide, by decide⟩
  · exact ⟨isAbsolute_of_filled fun none => (names "" none).filled rfl,
      fun above => (names ".." above).above rfl⟩

theorem IsProper.endsInSlash {path : String} (proper : IsProper path) :
    endsInSlash path = false := by
  rcases proper.segments with rfl | names
  · decide
  · have written := Plan.Written.of_plain fun segment member =>
      ⟨(names segment member).filled, (names segment member).here, (names segment member).free⟩
    rcases written with ⟨rfl, -⟩ | ⟨-, -, ends, -⟩
    · decide
    · exact ends

end Path

namespace Source.Twins

variable {disk : Disk} {revision : Revision} {top : Folder} (twins : Twins disk revision top)

include twins

theorem text_of_read {path text : String} (read : disk.read path = .ok text) :
    text ∈ top.texts := by
  unfold Disk.read at read
  rcases Snapshot.resolve_cases path with ⟨resolved, -⟩ | ⟨refused, -⟩
  · rw [resolved] at read
    dsimp only at read
    split at read
    · cases read
    · rw [twins.disk_reach] at read
      split at read <;> rename_i led <;> cases read
      exact Folder.text_of_walk led
  · rw [refused] at read
    cases read

/-- A tree whose names are all listed as they are is the same on disk and at the ref, to a
planner. -/
theorem alike (shown : top.Shown []) :
    (Snapshot.disk disk).Alike (Snapshot.revision revision) := by
  constructor
  · intro directory _
    exact twins.entries_agree fun folder led => (shown.walk led).level
  · rintro directory name ⟨entries, listed, member⟩
    obtain ⟨-, folder, led, held⟩ := twins.mem_disk_entries listed member
    have tidy := twins.tidy.placeOf led
    have proper := (tidy.name held).1
    obtain ⟨content, found⟩ := tidy.find_file held
    have agree := twins.read_agree (Folder.placeOf_join led proper found)
      (Path.endsInSlash_join proper)
    simpa only [Snapshot.read] using agree

end Source.Twins

/-- The working directory is committed at a ref as it stands, and the location leads to a folder in
it. No folder at the top of that one has a name that begins with a mark. -/
structure Workspace.Holds (workspace : Workspace) (location : Location) (ref : String)
    (top : Folder) : Prop where
  committed : workspace.commit? ref = some workspace.disk
  located : ∃ names, workspace.locate location.path = some names ∧
    workspace.disk.subfolder? names = some top
  tidy : top.Tidy
  unmarked : ∀ entry ∈ top.entries, entry.isFolder = true → Path.isMarked entry.name = false

namespace Tree

variable {workspace : Workspace} {location : Location} {ref : String} {top : Folder}

/-- A tree that is opened on disk and at the ref. -/
theorem open_twins (holds : workspace.Holds location ref top) :
    ∃ here there, openDisk workspace location = .ok here ∧
      openRevision workspace (location.withRef (some ref)) = .ok there ∧
      ∃ disk revision, here.snapshot workspace = .disk disk ∧
        there.snapshot workspace = .revision revision ∧ Source.Twins disk revision top := by
  obtain ⟨names, located, held⟩ := holds.located
  have place : (Node.folder workspace.disk).walk names = .node (.folder top) := by
    unfold Folder.subfolder? at held
    split at held
    · cases held
      assumption
    · cases held
  refine ⟨⟨location, none⟩, ⟨location.withRef (some ref), some ref⟩, ?_, ?_, _, _, rfl, rfl, ?_⟩
  · unfold openDisk
    rw [located]
  · unfold openRevision
    simp only [Location.withRef, located, Option.getD_some, holds.committed]
  · refine ⟨?_, ?_, holds.tidy⟩
    · simp only [located, placeAt, place]
    · simp only [Location.withRef, located, placeAt, holds.committed, Option.getD_some, place]

/-- A schema and seeds, in a folder of the working directory. -/
def seeded : Folder :=
  .folder "schemas"
    (.folder "app" (.file "schema.create.sql" (.text "create schema app") .nil) .nil)
    (.folder "seeds" (.file "all.ddsl" (.text "create schema app; sql seeds/one.sql")
      (.file "one.sql" (.text "select 1") .nil)) .nil)

/-- A working directory with one folder in it, as it is committed. -/
def holding (top : Folder) : Workspace :=
  let disk := Folder.folder "tree" top .nil
  { disk, commits := [("main", disk)] }

def treeLocation : Location := ⟨"file", "tree", none⟩

def seedDatabase : Command :=
  ⟨"seed", ["seed", "database"], some "database", none, [], none, "seed database", 1⟩

/-- A file whose name holds a quotation mark. -/
def quoted : Folder := .file "a\"b.sql" (.text "SELECT 1") .nil

end Tree

end Rollout
