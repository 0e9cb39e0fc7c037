import Mathlib.Data.List.Basic
import Mathlib.Data.String.Basic
import Rollout.Text.Ordered

/-!
Strings in order. By code point they are ordered as their UTF-8 bytes are, and sets of them are kept
as lists in ascending order.
-/

namespace Rollout.Text

/-- The UTF-8 bytes of a text. -/
def bytes (text : String) : List UInt8 := text.toList.flatMap String.utf8EncodeChar

/-- Whatever follows, the bytes of a lesser character come first. -/
theorem encode_lt {c d : Char} (less : c < d) (rest more : List UInt8) :
    String.utf8EncodeChar c ++ rest < String.utf8EncodeChar d ++ more := by
  have order : c.val.toNat < d.val.toNat := less
  have bound : d.val.toNat < 0x110000 := by
    rcases d.valid with low | ⟨-, high⟩ <;> omega
  unfold String.utf8EncodeChar
  dsimp only
  generalize c.val.toNat = low at order
  generalize d.val.toNat = high at order bound
  -- encodings of different lengths differ in the first byte, and all others in the first digit
  split_ifs <;> simp only [List.cons_append, List.nil_append, List.cons_lt_cons_iff,
    UInt8.lt_iff_toNat_lt, ← UInt8.toNat_inj, UInt8.toNat_ofNat'] <;> try omega
  rcases Nat.lt_or_ge (low / 4096) (high / 4096) with differ | same
  · omega
  · have first : low / 262144 = high / 262144 := by omega
    have second : low / 4096 = high / 4096 := by omega
    exact .inr ⟨by rw [first], .inr ⟨by rw [second], by omega⟩⟩

/-- A string that is less than another one is so byte by byte. -/
theorem bytes_lt {first second : String} (less : first < second) : bytes first < bytes second := by
  unfold bytes
  have letters : first.toList < second.toList := less
  generalize first.toList = text at letters
  generalize second.toList = other at letters
  induction letters with
  | @nil d more =>
      obtain ⟨byte, rest, encoded⟩ :=
        List.exists_cons_of_ne_nil (String.utf8EncodeChar_ne_nil (c := d))
      rw [List.flatMap_cons, encoded]
      exact List.Lex.nil
  | rel less => exact encode_lt less _ _
  | cons _ ih => exact List.append_left_lt ih

theorem mem_insertOrdered {value other : String} {set : List String} :
    other ∈ insertOrdered value set ↔ other = value ∨ other ∈ set := by
  induction set with
  | nil => simp [insertOrdered]
  | cons first rest ih =>
      unfold insertOrdered
      by_cases same : value = first
      · simp [same]
      · by_cases before : value < first
        · simp [same, before]
        · simp only [same, before, if_false, List.mem_cons, ih]
          exact or_left_comm

theorem insertOrdered_ascends {value : String} {set : List String}
    (ascends : set.Pairwise (· < ·)) : (insertOrdered value set).Pairwise (· < ·) := by
  induction set with
  | nil => exact List.pairwise_singleton _ _
  | cons first rest ih =>
      obtain ⟨least, later⟩ := List.pairwise_cons.mp ascends
      unfold insertOrdered
      split
      · exact ascends
      · rename_i apart
        split
        · rename_i before
          refine List.pairwise_cons.mpr ⟨fun other member => ?_, ascends⟩
          rcases List.mem_cons.mp member with rfl | deeper
          · exact before
          · exact String.lt_trans before (least other deeper)
        -- what is neither the first nor before it comes after it
        · rename_i behind
          refine List.pairwise_cons.mpr ⟨fun other member => ?_, ih later⟩
          rcases mem_insertOrdered.mp member with rfl | deeper
          · exact lt_of_le_of_ne (not_lt.mp behind) (Ne.symm apart)
          · exact least other deeper

theorem foldl_insertOrdered (values set : List String) (ascends : set.Pairwise (· < ·)) :
    (values.foldl (fun set value => insertOrdered value set) set).Pairwise (· < ·) ∧
      ∀ value, value ∈ values.foldl (fun set value => insertOrdered value set) set ↔
        value ∈ values ∨ value ∈ set := by
  induction values generalizing set with
  | nil => exact ⟨ascends, fun value => by simp⟩
  | cons first rest ih =>
      obtain ⟨ordered, among⟩ := ih _ (insertOrdered_ascends ascends)
      refine ⟨ordered, fun value => ?_⟩
      rw [List.foldl_cons, among, mem_insertOrdered, List.mem_cons]
      constructor
      · rintro (later | rfl | before)
        · exact .inl (.inr later)
        · exact .inl (.inl rfl)
        · exact .inr before
      · rintro ((rfl | later) | before)
        · exact .inr (.inl rfl)
        · exact .inl later
        · exact .inr (.inr before)

theorem orderedSet_ascends (values : List String) : (orderedSet values).Pairwise (· < ·) :=
  (foldl_insertOrdered values [] .nil).1

theorem mem_orderedSet {values : List String} {value : String} :
    value ∈ orderedSet values ↔ value ∈ values := by
  have among := (foldl_insertOrdered values [] .nil).2 value
  rwa [or_iff_left List.not_mem_nil] at among

end Rollout.Text
