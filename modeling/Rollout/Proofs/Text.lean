import Rollout.Text.Pieces

/-!
Cutting text at a character and putting it together again.
-/

namespace Rollout.Text

variable {separator : Char}

theorem pieces_ne_nil (text : List Char) : pieces separator text ≠ [] := by
  cases text with
  | nil => simp [pieces]
  | cons c rest =>
      unfold pieces
      split
      · simp
      · split <;> simp

theorem pieces_of_free {text : List Char} (free : separator ∉ text) :
    pieces separator text = [text] := by
  induction text with
  | nil => rfl
  | cons c rest ih =>
      have other : c ≠ separator := fun same => free (same ▸ List.mem_cons_self)
      have later : separator ∉ rest := fun member => free (List.mem_cons_of_mem _ member)
      simp [pieces, other, ih later]

theorem pieces_append (before after : List Char) :
    pieces separator (before ++ separator :: after) =
      pieces separator before ++ pieces separator after := by
  induction before with
  | nil => simp [pieces]
  | cons c rest ih =>
      simp only [List.cons_append, pieces, ih]
      split
      · rfl
      · cases first : pieces separator rest with
        | nil => exact absurd first (pieces_ne_nil rest)
        | cons piece more => rfl

theorem cutFirst_eq_some {text before after : List Char}
    (cut : cutFirst separator text = some (before, after)) :
    text = before ++ separator :: after ∧ separator ∉ before := by
  induction text generalizing before with
  | nil => cases cut
  | cons c rest ih =>
      unfold cutFirst at cut
      split at cut
      · rename_i same
        obtain ⟨rfl, rfl⟩ := Prod.mk.inj (Option.some.inj cut)
        simp [same]
      · rename_i other
        obtain ⟨⟨first, last⟩, later, same⟩ := Option.map_eq_some_iff.mp cut
        obtain ⟨rfl, rfl⟩ := Prod.mk.inj same
        obtain ⟨rfl, free⟩ := ih later
        refine ⟨rfl, fun within => ?_⟩
        rcases List.mem_cons.mp within with same | deeper
        · exact other same.symm
        · exact free deeper

theorem cutFirst_append {before : List Char} (after : List Char) (free : separator ∉ before) :
    cutFirst separator (before ++ separator :: after) = some (before, after) := by
  induction before with
  | nil => simp [cutFirst]
  | cons c rest ih =>
      have other : c ≠ separator := fun same => free (same ▸ List.mem_cons_self)
      have later : separator ∉ rest := fun member => free (List.mem_cons_of_mem _ member)
      simp [cutFirst, other, ih later]

theorem cutFirst_eq_none {text : List Char} (cut : cutFirst separator text = none) :
    separator ∉ text := by
  induction text with
  | nil => simp
  | cons c rest ih =>
      unfold cutFirst at cut
      split at cut
      · cases cut
      · rename_i other
        intro within
        rcases List.mem_cons.mp within with same | deeper
        · exact other same.symm
        · exact ih (Option.map_eq_none_iff.mp cut) deeper

theorem cutFirst_of_free {text : List Char} (free : separator ∉ text) :
    cutFirst separator text = none := by
  cases cut : cutFirst separator text with
  | none => rfl
  | some found =>
      obtain ⟨before, after⟩ := found
      rw [(cutFirst_eq_some cut).1] at free
      simp at free

theorem cutLast_eq_some {text before after : List Char}
    (cut : cutLast separator text = some (before, after)) :
    text = before ++ separator :: after ∧ separator ∉ after := by
  obtain ⟨⟨last, first⟩, found, same⟩ := Option.map_eq_some_iff.mp cut
  obtain ⟨rfl, rfl⟩ := Prod.mk.inj same
  obtain ⟨reversed, free⟩ := cutFirst_eq_some found
  refine ⟨?_, by simpa using free⟩
  have turned := congrArg List.reverse reversed
  simpa using turned

theorem cutLast_append {after : List Char} (before : List Char) (free : separator ∉ after) :
    cutLast separator (before ++ separator :: after) = some (before, after) := by
  have found : cutFirst separator (after.reverse ++ separator :: before.reverse) =
      some (after.reverse, before.reverse) := cutFirst_append _ (by simpa using free)
  simp [cutLast, found]

theorem cutLast_of_free {text : List Char} (free : separator ∉ text) :
    cutLast separator text = none := by
  simp [cutLast, cutFirst_of_free (by simpa using free : separator ∉ text.reverse)]

theorem cutLast_eq_none {text : List Char} (cut : cutLast separator text = none) :
    separator ∉ text := by
  have found : cutFirst separator text.reverse = none := by simpa [cutLast] using cut
  simpa using cutFirst_eq_none found

theorem splitAt_append (before after : String) :
    splitAt separator (before ++ String.singleton separator ++ after) =
      splitAt separator before ++ splitAt separator after := by
  have joined : (before ++ String.singleton separator ++ after).toList =
      before.toList ++ separator :: after.toList := by simp
  simp only [splitAt, joined, pieces_append, List.map_append]

theorem splitAt_of_free {text : String} (free : separator ∉ text.toList) :
    splitAt separator text = [text] := by
  simp [splitAt, pieces_of_free free]

theorem splitAt_ne_nil (text : String) : splitAt separator text ≠ [] := by
  simp [splitAt, pieces_ne_nil]

theorem not_mem_pieces {text piece : List Char} (member : piece ∈ pieces separator text) :
    separator ∉ piece := by
  induction text generalizing piece with
  | nil =>
      obtain rfl := List.mem_singleton.mp member
      exact List.not_mem_nil
  | cons first rest ih =>
      unfold pieces at member
      split at member
      · rcases List.mem_cons.mp member with rfl | later
        · exact List.not_mem_nil
        · exact ih later
      · rename_i other
        rcases cut : pieces separator rest with _ | ⟨held, more⟩
        · exact absurd cut (pieces_ne_nil rest)
        · rw [cut] at ih member
          rcases List.mem_cons.mp member with rfl | later
          · have clean := ih List.mem_cons_self
            simp [clean, Ne.symm other]
          · exact ih (List.mem_cons_of_mem _ later)

theorem mem_of_mem_pieces {text piece : List Char} {c : Char}
    (member : piece ∈ pieces separator text) (letter : c ∈ piece) : c ∈ text := by
  induction text generalizing piece with
  | nil =>
      obtain rfl := List.mem_singleton.mp member
      cases letter
  | cons first rest ih =>
      unfold pieces at member
      split at member
      · rcases List.mem_cons.mp member with rfl | later
        · cases letter
        · exact List.mem_cons_of_mem _ (ih later letter)
      · rcases cut : pieces separator rest with _ | ⟨held, more⟩
        · exact absurd cut (pieces_ne_nil rest)
        · rw [cut] at ih member
          rcases List.mem_cons.mp member with rfl | later
          · rcases List.mem_cons.mp letter with rfl | deeper
            · exact List.mem_cons_self
            · exact List.mem_cons_of_mem _ (ih List.mem_cons_self deeper)
          · exact List.mem_cons_of_mem _ (ih (List.mem_cons_of_mem _ later) letter)

theorem not_mem_splitAt {text piece : String} (member : piece ∈ splitAt separator text) :
    separator ∉ piece.toList := by
  obtain ⟨letters, within, rfl⟩ := List.mem_map.mp member
  rw [String.toList_ofList]
  exact not_mem_pieces within

theorem mem_pieces {text : List Char} {c : Char} (member : c ∈ text) :
    c = separator ∨ ∃ piece ∈ pieces separator text, c ∈ piece := by
  induction text with
  | nil => cases member
  | cons first rest ih =>
      unfold pieces
      split
      · rename_i same
        rcases List.mem_cons.mp member with rfl | later
        · exact .inl same
        · refine (ih later).imp_right ?_
          rintro ⟨piece, within, letter⟩
          exact ⟨piece, List.mem_cons_of_mem _ within, letter⟩
      · rcases cut : pieces separator rest with _ | ⟨piece, more⟩
        · exact absurd cut (pieces_ne_nil rest)
        · rw [cut] at ih
          rcases List.mem_cons.mp member with rfl | later
          · exact .inr ⟨_, List.mem_cons_self, List.mem_cons_self⟩
          · refine (ih later).imp_right ?_
            rintro ⟨held, within, letter⟩
            rcases List.mem_cons.mp within with rfl | others
            · exact ⟨_, List.mem_cons_self, List.mem_cons_of_mem _ letter⟩
            · exact ⟨held, List.mem_cons_of_mem _ others, letter⟩

theorem mem_splitAt {text : String} {c : Char} (member : c ∈ text.toList) :
    c = separator ∨ ∃ piece ∈ splitAt separator text, c ∈ piece.toList := by
  refine (mem_pieces member).imp_right ?_
  rintro ⟨piece, within, letter⟩
  exact ⟨String.ofList piece, List.mem_map_of_mem within, by simpa using letter⟩

theorem intercalate_pieces (text : List Char) :
    [separator].intercalate (pieces separator text) = text := by
  induction text with
  | nil => rfl
  | cons c rest ih =>
      unfold pieces
      split
      · rename_i same
        have filled : pieces separator rest ≠ [] := pieces_ne_nil rest
        obtain ⟨piece, more, cut⟩ := List.exists_cons_of_ne_nil filled
        rw [cut] at ih ⊢
        rw [List.intercalate_cons_cons, ih, same]
        rfl
      · split
        · rename_i cut
          exact absurd cut (pieces_ne_nil rest)
        · rename_i piece more cut
          rw [cut] at ih
          cases more with
          | nil => simpa using ih
          | cons second more =>
              rw [List.intercalate_cons_cons] at ih ⊢
              simp [← ih]

/-- Pieces that are put together are told apart again. -/
theorem pieces_intercalate {parts : List (List Char)} (filled : parts ≠ [])
    (free : ∀ part ∈ parts, separator ∉ part) :
    pieces separator ([separator].intercalate parts) = parts := by
  induction parts with
  | nil => exact absurd rfl filled
  | cons part rest ih =>
      obtain ⟨first, others⟩ := List.forall_mem_cons.mp free
      cases rest with
      | nil => rw [List.intercalate_singleton, pieces_of_free first]
      | cons second rest =>
          rw [List.intercalate_cons_cons, List.append_assoc, List.singleton_append, pieces_append,
            pieces_of_free first, ih (by simp) others]
          rfl

theorem mem_intercalate_letters {parts : List (List Char)} {c : Char}
    (member : c ∈ [separator].intercalate parts) : c = separator ∨ ∃ part ∈ parts, c ∈ part := by
  induction parts with
  | nil => cases member
  | cons part rest ih =>
      cases rest with
      | nil =>
          rw [List.intercalate_singleton] at member
          exact .inr ⟨part, List.mem_cons_self, member⟩
      | cons second rest =>
          rw [List.intercalate_cons_cons] at member
          simp only [List.mem_append, List.mem_singleton] at member
          rcases member with (within | same) | later
          · exact .inr ⟨part, List.mem_cons_self, within⟩
          · exact .inl same
          · refine (ih later).imp_right ?_
            rintro ⟨held, among, letter⟩
            exact ⟨held, List.mem_cons_of_mem _ among, letter⟩

theorem intercalate_splitAt (text : String) :
    (String.singleton separator).intercalate (splitAt separator text) = text := by
  apply String.ext
  have letters : (splitAt separator text).map String.toList = pieces separator text.toList := by
    simp [splitAt, Function.comp_def]
  rw [String.toList_intercalate, letters]
  simpa using intercalate_pieces text.toList

/-- Names that are listed are told apart again. -/
theorem splitAt_intercalate {names : List String} (filled : names ≠ [])
    (free : ∀ name ∈ names, separator ∉ name.toList) :
    splitAt separator ((String.singleton separator).intercalate names) = names := by
  induction names with
  | nil => exact absurd rfl filled
  | cons name rest ih =>
      obtain ⟨first, others⟩ := List.forall_mem_cons.mp free
      cases rest with
      | nil => rw [String.intercalate_singleton, splitAt_of_free first]
      | cons second rest =>
          rw [String.intercalate_cons_cons, splitAt_append, splitAt_of_free first,
            ih (by simp) others]
          rfl

theorem mem_intercalate {separator : String} {names : List String} {c : Char}
    (member : c ∈ (separator.intercalate names).toList) :
    c ∈ separator.toList ∨ ∃ name ∈ names, c ∈ name.toList := by
  induction names with
  | nil => simp at member
  | cons name rest ih =>
      cases rest with
      | nil =>
          rw [String.intercalate_singleton] at member
          exact .inr ⟨name, List.mem_cons_self, member⟩
      | cons second rest =>
          rw [String.intercalate_cons_cons, String.toList_append, String.toList_append,
            List.append_assoc] at member
          rcases List.mem_append.mp member with first | later
          · exact .inr ⟨name, List.mem_cons_self, first⟩
          · rcases List.mem_append.mp later with between | others
            · exact .inl between
            · refine (ih others).imp_right ?_
              rintro ⟨held, within, letter⟩
              exact ⟨held, List.mem_cons_of_mem _ within, letter⟩

end Rollout.Text
