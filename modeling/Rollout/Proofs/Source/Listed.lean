import Rollout.Source.Revision
import Rollout.Proofs.Path

/-!
The names that listings of commits show. A name that is not shown as it is ends in a quotation
mark.
-/

namespace Rollout.Source

namespace Listed

/-- Characters that mean something in a path or a pattern, or end a path or a line. -/
def signs : List Char := ['/', '?', '*', '\x7b', '\x00', '\n']

theorem digitChar_special {digit : Nat} (bound : digit < 8) :
    Nat.digitChar digit ∉ signs := by
  revert digit
  decide

/-- Escapes bring none of them. -/
theorem mem_escape {c d : Char} (member : d ∈ escape c) : d = c ∨ d ∉ signs := by
  unfold escape at member
  split at member
  · exact .inl (List.mem_singleton.mp member)
  · right
    split at member
    · rename_i letter found
      rcases List.mem_cons.mp member with rfl | rest
      · decide
      · obtain rfl := List.mem_singleton.mp rest
        unfold letter? at found
        split at found <;> cases found <;> decide
    · obtain ⟨byte, -, digits⟩ := List.mem_flatMap.mp member
      have bound := byte.toNat_lt
      simp only [octal, List.mem_cons, List.not_mem_nil, or_false] at digits
      rcases digits with rfl | rfl | rfl | rfl
      · decide
      all_goals exact digitChar_special (by omega)

/-- A text with escapes, without the quotation marks around it. -/
def escaped (text : String) : String := String.ofList (text.toList.flatMap escape)

theorem not_mem_escaped {c : Char} (special : c ∈ signs) {text : String}
    (free : c ∉ text.toList) : c ∉ (escaped text).toList := by
  intro member
  simp only [escaped, String.toList_ofList] at member
  obtain ⟨d, origin, within⟩ := List.mem_flatMap.mp member
  rcases mem_escape within with rfl | other
  · exact free origin
  · exact other special

theorem escaped_append (directory name : String) :
    escaped (directory ++ "/" ++ name) = escaped directory ++ "/" ++ escaped name := by
  apply String.ext
  have slash : escape '/' = ['/'] := by decide
  simp [escaped, slash]

theorem escape_ne_nil (c : Char) : escape c ≠ [] := by
  unfold escape
  split
  · simp
  · split
    · simp
    · obtain ⟨byte, member⟩ := List.exists_mem_of_ne_nil _ (String.utf8EncodeChar_ne_nil (c := c))
      intro none
      exact nomatch List.flatMap_eq_nil_iff.mp none byte member

/-- An escaped text is no shorter. -/
theorem length_escaped (text : String) : text.toList.length ≤ (escaped text).toList.length := by
  simp only [escaped, String.toList_ofList]
  induction text.toList with
  | nil => simp
  | cons c rest ih =>
      have one : 0 < (escape c).length := List.length_pos_iff.mpr (escape_ne_nil c)
      simp only [List.length_cons, List.flatMap_cons, List.length_append]
      omega

theorem digitChar_inj : ∀ first < 8, ∀ second < 8,
    Nat.digitChar first = Nat.digitChar second → first = second := by
  decide

theorem octal_inj {first second : UInt8} (same : octal first.toNat = octal second.toNat) :
    first = second := by
  have one := first.toNat_lt
  have two := second.toNat_lt
  simp only [octal, List.cons.injEq, and_true, true_and] at same
  obtain ⟨high, middle, low⟩ := same
  have highest := digitChar_inj _ (by omega) _ (by omega) high
  have between := digitChar_inj _ (by omega) _ (by omega) middle
  have lowest := digitChar_inj _ (by omega) _ (by omega) low
  exact UInt8.toNat_inj.mp (by omega)

/-- Of two runs of bytes that begin the same text, one begins the other. -/
theorem octals_prefix {first second : List UInt8} {rest more : List Char}
    (same : first.flatMap (fun byte => octal byte.toNat) ++ rest =
      second.flatMap (fun byte => octal byte.toNat) ++ more) :
    first <+: second ∨ second <+: first := by
  induction first generalizing second with
  | nil => exact .inl (List.nil_prefix)
  | cons byte bytes ih =>
      cases second with
      | nil => exact .inr (List.nil_prefix)
      | cons other others =>
          simp only [List.flatMap_cons, List.append_assoc] at same
          obtain ⟨head, tail⟩ := List.append_inj same rfl
          obtain rfl := octal_inj head
          exact (ih tail).imp (List.prefix_cons_inj _).mpr (List.prefix_cons_inj _).mpr

theorem eq_of_bytes_begin {c d : Char}
    (begins : String.utf8EncodeChar c <+: String.utf8EncodeChar d) : c = d := by
  obtain ⟨more, whole⟩ := begins
  have first := @ByteArray.utf8DecodeChar?_utf8EncodeChar_append more.toByteArray c
  have second := @ByteArray.utf8DecodeChar?_utf8EncodeChar_append ByteArray.empty d
  rw [← List.toByteArray_append, whole] at first
  rw [ByteArray.append_empty, first] at second
  exact Option.some.inj second

theorem letter_inj {c d letter : Char} (first : letter? c = some letter)
    (second : letter? d = some letter) : c = d := by
  unfold letter? at first second
  split at first <;> cases first <;> split at second <;> first | rfl | cases second

theorem letter_not_digit {c letter : Char} (found : letter? c = some letter) {digit : Nat}
    (small : digit < 8) : letter ≠ Nat.digitChar digit := by
  unfold letter? at found
  split at found <;> cases found <;> revert digit <;> decide

theorem octals_head (c : Char) : ∃ digit < 8, ∃ tail,
    (String.utf8EncodeChar c).flatMap (fun byte => octal byte.toNat) =
      '\\' :: Nat.digitChar digit :: tail := by
  obtain ⟨byte, bytes, whole⟩ :=
    List.exists_cons_of_ne_nil (String.utf8EncodeChar_ne_nil (c := c))
  have bound := byte.toNat_lt
  exact ⟨byte.toNat / 64, by omega, _, by rw [whole]; rfl⟩

/-- How a character is written tells it from every other one, whatever follows. -/
theorem escape_inj {c d : Char} {rest more : List Char}
    (same : escape c ++ rest = escape d ++ more) : c = d := by
  obtain ⟨low, small, tail, here⟩ := octals_head c
  obtain ⟨high, least, last, there⟩ := octals_head d
  have unplain : ∀ {e : Char}, isPlain e = true → e ≠ '\\' := by
    rintro e plain rfl
    cases plain
  unfold escape at same
  cases first : isPlain c <;> cases second : isPlain d <;> simp only [first, second, if_true,
    Bool.false_eq_true, if_false] at same
  · cases named : letter? c <;> cases called : letter? d <;> simp only [named, called] at same
    · rcases octals_prefix same with begins | begins
      · exact eq_of_bytes_begin begins
      · exact (eq_of_bytes_begin begins).symm
    · rw [here] at same
      simp only [List.cons_append, List.cons.injEq, true_and] at same
      exact absurd same.1.symm (letter_not_digit called small)
    · rw [there] at same
      simp only [List.cons_append, List.cons.injEq, true_and] at same
      exact absurd same.1 (letter_not_digit named least)
    · simp only [List.cons_append, List.cons.injEq, true_and] at same
      exact letter_inj named (same.1 ▸ called)
  · -- what is not plain begins with a backslash
    have head : some '\\' = some d := by
      have heads := congrArg List.head? same
      cases named : letter? c <;> simpa [named, here] using heads
    exact absurd (Option.some.inj head).symm (unplain second)
  · have head : some c = some '\\' := by
      have heads := congrArg List.head? same
      cases called : letter? d <;> simpa [called, there] using heads
    exact absurd (Option.some.inj head) (unplain first)
  · exact (List.cons.inj same).1

theorem escaped_inj {first second : String} (same : escaped first = escaped second) :
    first = second := by
  have letters : first.toList.flatMap escape = second.toList.flatMap escape := by
    simpa [escaped] using congrArg String.toList same
  apply String.ext
  generalize first.toList = text at letters ⊢
  generalize second.toList = other at letters ⊢
  induction text generalizing other with
  | nil =>
      cases other with
      | nil => rfl
      | cons d more => simp [escape_ne_nil] at letters
  | cons c rest ih =>
      cases other with
      | nil => simp [escape_ne_nil] at letters
      | cons d more =>
          simp only [List.flatMap_cons] at letters
          obtain rfl := escape_inj letters
          rw [ih more (List.append_cancel_left letters)]

/-- Does a listing show the path as it is? -/
def isShown (path : String) : Bool := path.toList.all isPlain

theorem written_shown {path : String} (shown : isShown path = true) : written path = path :=
  if_pos shown

theorem written_hidden {path : String} (hidden : isShown path = false) :
    written path = "\"" ++ escaped path ++ "\"" := by
  unfold isShown at hidden
  unfold written
  rw [hidden]
  apply String.ext
  simp [escaped]

end Listed

namespace Revision

open Listed (escaped)

/-- The path that a listing takes a name from, in the top folder and below it. -/
theorem ofSegments_append (names : List String) (name : String) :
    Path.ofSegments (names ++ [name]) =
      if names = [] then name else Path.ofSegments names ++ "/" ++ name := by
  split <;> rename_i top
  · rw [top, List.nil_append, Path.ofSegments, String.intercalate_singleton]
  · rw [Path.ofSegments, String.intercalate_append_of_ne_nil top (by simp),
      String.intercalate_singleton]
    rfl

theorem listedName_shown {names : List String} {name : String} (proper : Path.IsName name)
    (shown : Listed.isShown (Path.ofSegments (names ++ [name])) = true) :
    listedName names name = name := by
  unfold listedName
  rw [Listed.written_shown shown, ofSegments_append]
  split
  · exact Path.baseName_of_free proper.filled proper.free
  · exact Path.baseName_append _ proper.filled proper.free

/-- Of a path in quotation marks the last segment is taken with the mark behind it. In the top
folder the mark before it stands there too, else it stands before the folders. -/
theorem listedName_quoted {names : List String} {name : String} (proper : Path.IsName name)
    (hidden : Listed.isShown (Path.ofSegments (names ++ [name])) = false) :
    listedName names name = (if names = [] then "\"" else "") ++ escaped name ++ "\"" := by
  have free : '/' ∉ (escaped name ++ "\"").toList := by
    simpa using Listed.not_mem_escaped (by decide) proper.free
  have filled : escaped name ++ "\"" ≠ "" := by simp
  unfold listedName
  rw [Listed.written_hidden hidden, ofSegments_append]
  split
  · rw [String.append_assoc, Path.baseName_of_free (by simp) (by simpa using free)]
  · have parts : "\"" ++ escaped (Path.ofSegments names ++ "/" ++ name) ++ "\"" =
        "\"" ++ escaped (Path.ofSegments names) ++ "/" ++ (escaped name ++ "\"") := by
      rw [Listed.escaped_append]
      simp only [String.append_assoc]
    rw [parts, Path.baseName_append _ filled free]
    simp

theorem listedName_hidden {names : List String} {name : String} (proper : Path.IsName name)
    (hidden : Listed.isShown (Path.ofSegments (names ++ [name])) = false) :
    ∃ start, (start = "" ∨ start = "\"") ∧
      listedName names name = start ++ escaped name ++ "\"" := by
  refine ⟨_, ?_, listedName_quoted proper hidden⟩
  split
  · exact .inr rfl
  · exact .inl rfl

/-- A listed name is the name, or its escaped form before a quotation mark. -/
theorem listedName_cases (names : List String) {name : String} (proper : Path.IsName name) :
    listedName names name = name ∨
      ∃ start, (start = "" ∨ start = "\"") ∧
        listedName names name = start ++ escaped name ++ "\"" := by
  cases shown : Listed.isShown (Path.ofSegments (names ++ [name])) with
  | true => exact .inl (listedName_shown proper shown)
  | false => exact .inr (listedName_hidden proper shown)

/-- A name that is not shown as it is gets longer. -/
theorem length_listedName {names : List String} {name : String} (proper : Path.IsName name)
    (hidden : Listed.isShown (Path.ofSegments (names ++ [name])) = false) :
    name.toList.length < (listedName names name).toList.length := by
  obtain ⟨start, -, same⟩ := listedName_hidden proper hidden
  have longer := Listed.length_escaped name
  rw [same]
  simp only [String.toList_append, List.length_append]
  have mark : "\"".toList.length = 1 := by decide
  omega

/-- No name that is listed as it is ends as those do that are not. -/
theorem not_quoted_of_shown {names : List String} {name : String}
    (shown : Listed.isShown (Path.ofSegments (names ++ [name])) = true) : '"' ∉ name.toList := by
  have plain := List.all_eq_true.mp shown
  intro member
  have within : '"' ∈ (Path.ofSegments (names ++ [name])).toList := by
    rw [ofSegments_append]
    split <;> simp [member]
  exact absurd (plain _ within) (by decide)

/-- Different names in a folder are listed as different ones. -/
theorem listedName_inj {names : List String} {first second : String} (one : Path.IsName first)
    (two : Path.IsName second) (same : listedName names first = listedName names second) :
    first = second := by
  have apart : ∀ {shown hidden : String}, Path.IsName shown → Path.IsName hidden →
      Listed.isShown (Path.ofSegments (names ++ [shown])) = true →
      Listed.isShown (Path.ofSegments (names ++ [hidden])) = false →
      listedName names shown ≠ listedName names hidden := by
    intro shown hidden proper other plain quoted equal
    rw [listedName_shown proper plain, listedName_quoted other quoted] at equal
    refine not_quoted_of_shown plain ?_
    rw [equal]
    simp
  cases here : Listed.isShown (Path.ofSegments (names ++ [first])) <;>
    cases there : Listed.isShown (Path.ofSegments (names ++ [second]))
  · rw [listedName_quoted one here, listedName_quoted two there] at same
    exact Listed.escaped_inj (by simpa using same)
  · exact absurd same.symm (apart two one there here)
  · exact absurd same (apart one two here there)
  · rwa [listedName_shown one here, listedName_shown two there] at same

/-- No character that means something in a path or a pattern comes into a listed name. -/
theorem not_mem_listedName {c : Char} (special : c ∈ Listed.signs)
    (names : List String) {name : String} (proper : Path.IsName name) (free : c ∉ name.toList) :
    c ∉ (listedName names name).toList := by
  have other : c ≠ '"' := by
    rintro rfl
    revert special
    decide
  rcases listedName_cases names proper with same | ⟨start, mark, same⟩ <;> rw [same]
  · exact free
  · rcases mark with rfl | rfl <;> simpa [other] using Listed.not_mem_escaped special free

theorem listedName_isName (names : List String) {name : String} (proper : Path.IsName name) :
    Path.IsName (listedName names name) := by
  have free := not_mem_listedName (by decide) names proper proper.free
  rcases listedName_cases names proper with same | ⟨start, -, same⟩
  · rwa [same]
  · have last : (listedName names name).toList.getLast? = some '"' := by
      rw [same]
      simp
    refine ⟨?_, ?_, ?_, free⟩
    all_goals
      intro equal
      rw [equal] at last
      revert last
      decide

/-- Only a name that is listed in its escaped form differs from its listed form. -/
theorem eq_of_listedName {names : List String} {name : String} (proper : Path.IsName name)
    (plain : (listedName names name).toList.getLast? ≠ some '"') :
    listedName names name = name := by
  rcases listedName_cases names proper with same | ⟨start, -, same⟩
  · exact same
  · rw [same] at plain
    simp at plain

theorem listedName_not_isWildcard (names : List String) {name : String}
    (proper : Path.IsName name) (unmarked : Path.isWildcard name = false) :
    Path.isWildcard (listedName names name) = false := by
  obtain ⟨question, asterisk, brace⟩ := Path.not_isWildcard_iff.mp unmarked
  exact Path.not_isWildcard_iff.mpr ⟨not_mem_listedName (by decide) names proper question,
    not_mem_listedName (by decide) names proper asterisk,
    not_mem_listedName (by decide) names proper brace⟩

end Revision

end Rollout.Source
