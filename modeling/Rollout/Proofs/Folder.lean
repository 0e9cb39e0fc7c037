import Rollout.Folder
import Rollout.Proofs.Path

/-!
Folders as source trees have them, and following names through them.
-/

namespace Rollout

/-- The names at any depth are distinct and lead somewhere, and no folder has a name that could be
taken for a pattern. -/
def Folder.Orderly : Folder → Prop
  | nil => True
  | file name _ beside =>
      Path.IsName name ∧ name ∉ beside.entries.map Entry.name ∧ beside.Orderly
  | folder name below beside =>
      Path.IsName name ∧ Path.isWildcard name = false ∧ name ∉ beside.entries.map Entry.name ∧
        below.Orderly ∧ beside.Orderly

namespace Folder

/-- What is found by a name is found at the name, behind all others. -/
theorem find_induction {name : String} {node : Node} {motive : Folder → Prop} {top : Folder}
    (found : top.find? name = some node) (here : ∀ beside, motive (cons name node beside))
    (besideFile : ∀ first content beside, motive beside → motive (file first content beside))
    (besideFolder : ∀ first below beside, motive beside → motive (folder first below beside)) :
    motive top := by
  induction top with
  | nil => cases found
  | file first content beside ih =>
      unfold find? at found
      split at found <;> rename_i same
      · cases found
        exact same ▸ here beside
      · exact besideFile first content beside (ih found)
  | folder first below beside _ ih =>
      unfold find? at found
      split at found <;> rename_i same
      · cases found
        exact same ▸ here beside
      · exact besideFolder first below beside (ih found)

def decideOrderly : (top : Folder) → Decidable top.Orderly
  | nil => isTrue trivial
  | file _ _ beside =>
      have := decideOrderly beside
      inferInstanceAs (Decidable (_ ∧ _ ∧ _))
  | folder _ below beside =>
      have := decideOrderly below
      have := decideOrderly beside
      inferInstanceAs (Decidable (_ ∧ _ ∧ _ ∧ _ ∧ _))

instance (top : Folder) : Decidable top.Orderly := decideOrderly top

theorem Orderly.isName {top : Folder} (orderly : top.Orderly) {entry : Entry}
    (member : entry ∈ top.entries) : Path.IsName entry.name := by
  induction top with
  | nil => cases member
  | file name content beside ih =>
      obtain ⟨isName, -, rest⟩ := orderly
      rcases List.mem_cons.mp member with rfl | later
      · exact isName
      · exact ih rest later
  | folder name below beside _ ih =>
      obtain ⟨isName, -, -, -, rest⟩ := orderly
      rcases List.mem_cons.mp member with rfl | later
      · exact isName
      · exact ih rest later

theorem Orderly.not_isWildcard {top : Folder} (orderly : top.Orderly) {entry : Entry}
    (member : entry ∈ top.entries) (isFolder : entry.isFolder = true) :
    Path.isWildcard entry.name = false := by
  induction top with
  | nil => cases member
  | file name content beside ih =>
      rcases List.mem_cons.mp member with rfl | later
      · cases isFolder
      · exact ih orderly.2.2 later
  | folder name below beside _ ih =>
      obtain ⟨-, unmarked, -, -, rest⟩ := orderly
      rcases List.mem_cons.mp member with rfl | later
      · exact unmarked
      · exact ih rest later

theorem Orderly.find_file {top : Folder} (orderly : top.Orderly) {name : String}
    (member : ⟨name, false⟩ ∈ top.entries) : ∃ content, top.find? name = some (.file content) := by
  induction top with
  | nil => cases member
  | file first content beside ih =>
      obtain ⟨-, fresh, rest⟩ := orderly
      rcases List.mem_cons.mp member with same | later
      · obtain rfl : name = first := congrArg Entry.name same
        exact ⟨content, by simp [find?]⟩
      · have other : first ≠ name := by
          rintro rfl
          exact fresh (List.mem_map_of_mem later)
        simpa [find?, other] using ih rest later
  | folder first below beside _ ih =>
      obtain ⟨-, -, fresh, -, rest⟩ := orderly
      rcases List.mem_cons.mp member with same | later
      · cases same
      · have other : first ≠ name := by
          rintro rfl
          exact fresh (List.mem_map_of_mem later)
        simpa [find?, other] using ih rest later

theorem Orderly.find_folder {top below : Folder} (orderly : top.Orderly) {name : String}
    (found : top.find? name = some (.folder below)) : below.Orderly := by
  refine find_induction (motive := fun top => top.Orderly → below.Orderly) found ?_ ?_ ?_ orderly
  · exact fun beside orderly => orderly.2.2.2.1
  · exact fun first content beside ih orderly => ih orderly.2.2
  · exact fun first inside beside ih orderly => ih orderly.2.2.2.2

end Folder

namespace Node

theorem walk_append (node : Node) (names more : List String) :
    node.walk (names ++ more) =
      match node.walk names with
      | .node last => last.walk more
      | other => other := by
  induction names generalizing node with
  | nil => rfl
  | cons name rest ih =>
      cases node with
      | file content => rfl
      | folder top =>
          simp only [List.cons_append, walk]
          cases top.find? name with
          | none => rfl
          | some next => exact ih next

/-- Names lead through folders, and the last one to a folder or a file. -/
theorem walk_induction {node : Node} {motive : List String → Folder → Prop}
    {names : List String} {top : Folder} (led : (Node.folder top).walk names = .node node)
    (here : ∀ last, node = .folder last → motive [] last)
    (file : ∀ name content top, node = .file content →
      top.find? name = some (.file content) → motive [name] top)
    (below : ∀ name rest top inside, top.find? name = some (.folder inside) →
      motive rest inside → motive (name :: rest) top) : motive names top := by
  induction names generalizing top with
  | nil =>
      cases led
      exact here top rfl
  | cons name rest ih =>
      unfold walk at led
      split at led
      · cases led
      · rename_i next found
        cases next with
        | folder inside => exact below name rest top inside found (ih led)
        | file content =>
            cases rest with
            | nil =>
                cases led
                exact file name content top rfl found
            | cons second more => cases led

theorem walk_orderly {names : List String} {top below : Folder} (orderly : top.Orderly)
    (led : (Node.folder top).walk names = .node (.folder below)) : below.Orderly := by
  refine walk_induction (motive := fun _ top => top.Orderly → below.Orderly) led ?_ nofun ?_ orderly
  · rintro _ ⟨⟩ orderly
    exact orderly
  · exact fun name rest top inside found ih orderly => ih (orderly.find_folder found)

end Node

end Rollout
