import Rollout.Name
import Rollout.Proofs.Text

/-!
The characters of names.
-/

namespace Rollout.Name

/-- What stands on either side of the dot in a name of an item. -/
def IsPart (name : String) : Prop := name = wildcard ∨ isIdentifier name = true

def IsQualified (name : String) : Prop :=
  ∃ schema item, qualified? name = some (schema, item) ∧ IsPart schema ∧ IsPart item

theorem isIdentifier_letters {name : String} (identifier : isIdentifier name = true) :
    name ≠ "" ∧ ∀ c ∈ name.toList, isIdentifierRest c = true := by
  unfold isIdentifier at identifier
  split at identifier
  · cases identifier
  · rename_i c rest letters
    obtain ⟨first, later⟩ := Bool.and_eq_true_iff.mp identifier
    constructor
    · rintro rfl
      cases letters
    · rw [letters]
      refine List.forall_mem_cons.mpr ⟨?_, List.all_eq_true.mp later⟩
      simp [isIdentifierRest, first]

theorem not_mem_isIdentifier {name : String} (identifier : isIdentifier name = true) {c : Char}
    (other : isIdentifierRest c = false) : c ∉ name.toList := by
  intro member
  rw [(isIdentifier_letters identifier).2 c member] at other
  cases other

theorem IsPart.not_mem {name : String} (part : IsPart name) {c : Char}
    (other : isIdentifierRest c = false) (question : c ≠ '?') : c ∉ name.toList := by
  rcases part with rfl | identifier
  · simpa [wildcard] using question
  · exact not_mem_isIdentifier identifier other

theorem IsPart.ne_empty {name : String} (part : IsPart name) : name ≠ "" := by
  rcases part with rfl | identifier
  · decide
  · exact (isIdentifier_letters identifier).1

/-- The characters of a pair are those of names, the wildcard and the dot. -/
theorem IsQualified.letters {name : String} (qualified : IsQualified name) {c : Char}
    (member : c ∈ name.toList) : isIdentifierRest c = true ∨ c = '?' ∨ c = '.' := by
  obtain ⟨schema, item, split, fits⟩ := qualified
  have parts : Text.splitAt '.' name = [schema, item] := by
    unfold qualified? at split
    split at split
    · rename_i first second parts
      split at split
      · cases split
      · cases split
        exact parts
    · cases split
  rcases Text.mem_splitAt member with dot | ⟨part, within, letter⟩
  · exact .inr (.inr dot)
  · have isPart : IsPart part := by
      simp only [parts, List.mem_cons, List.not_mem_nil, or_false] at within
      rcases within with rfl | rfl
      · exact fits.1
      · exact fits.2
    rcases isPart with rfl | identifier
    · exact .inr (.inl (by simpa [wildcard] using letter))
    · exact .inl ((isIdentifier_letters identifier).2 c letter)

end Rollout.Name
