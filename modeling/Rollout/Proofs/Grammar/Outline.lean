import Rollout.Grammar.Outline
import Rollout.Proofs.Outcome

/-!
Outlines and their trees. In the tree of an outline each keyword stands as deep as its level says,
and the outline is the tree in preorder. An entry that is added to the outline changes the tree only
at a keyword that is open: the last of the first row, the last one below it and so on.
-/

namespace Rollout.Grammar

/-- Each keyword stands as deep as its level says, the first row at the given level; those at level
zero, and no others, are roots. -/
def Placed (level : Nat) : Grammar → Prop
  | nil => True
  | cons keyword below beside =>
      keyword.level = level ∧ (keyword.traits.root = true ↔ level = 0) ∧
        below.Placed (level + 1) ∧ beside.Placed level

def size : Grammar → Nat
  | nil => 0
  | cons _ below beside => 1 + below.size + beside.size

/-- How many keywords are open. -/
def depth : Grammar → Nat
  | nil => 0
  | cons _ below nil => below.depth + 1
  | cons _ _ (cons keyword below beside) => depth (cons keyword below beside)

/-- Changes the keyword that is open at a depth, and puts more behind what stands below it. -/
def extend (change : Keyword → Keyword) (grammar more : Grammar) (place : Nat) : Grammar :=
  match grammar, place with
  | nil, _ => nil
  | cons keyword below nil, 0 => cons (change keyword) (below.append more) nil
  | cons keyword below nil, place + 1 => cons keyword (below.extend change more place) nil
  | cons keyword below (cons next inside beside), place =>
      cons keyword below (extend change (cons next inside beside) more place)

def addSlot (slot : Slot) (keyword : Keyword) : Keyword :=
  { keyword with slots := keyword.slots ++ [slot] }

/-- The tree of an outline with one more entry. -/
def entered (grammar : Grammar) : Entry → Grammar
  | .keyword keyword =>
      match keyword.level with
      | 0 => grammar.append (cons keyword nil nil)
      | level + 1 => grammar.extend id (cons keyword nil nil) level
  | .slot level slot => grammar.extend (addSlot slot) nil level

/-- An entry that can be added where so many keywords are open. -/
def Entry.Fits (depth : Nat) : Entry → Prop
  | .keyword new => new.level ≤ depth ∧ (new.traits.root = true ↔ new.level = 0)
  | .slot level _ => level < depth

section Append

variable (grammar more : Grammar)

@[simp] theorem append_nil : grammar.append nil = grammar := by
  induction grammar with
  | nil => rfl
  | cons keyword below beside _ ih => rw [append, ih]

@[simp] theorem append_assoc (last : Grammar) :
    (grammar.append more).append last = grammar.append (more.append last) := by
  induction grammar with
  | nil => rfl
  | cons keyword below beside _ ih => rw [append, append, append, ih]

@[simp] theorem size_append : (grammar.append more).size = grammar.size + more.size := by
  induction grammar with
  | nil => exact (Nat.zero_add _).symm
  | cons keyword below beside _ ih => rw [append, size, size, ih, ← Nat.add_assoc]

@[simp] theorem preorder_append :
    (grammar.append more).preorder = grammar.preorder ++ more.preorder := by
  induction grammar with
  | nil => rfl
  | cons keyword below beside _ ih => simp [append, preorder, ih]

end Append

variable {grammar more below : Grammar} {change : Keyword → Keyword} {level place : Nat}

theorem placed_append :
    (grammar.append more).Placed level ↔ grammar.Placed level ∧ more.Placed level := by
  induction grammar with
  | nil => simp [append, Placed]
  | cons keyword below beside _ ih =>
      rw [append, Placed, Placed, ih]
      simp only [and_assoc]

theorem find_append (word : String) :
    (grammar.append more).find? word = (grammar.find? word).or (more.find? word) := by
  induction grammar with
  | nil => rfl
  | cons keyword below beside _ ih =>
      rw [append, find?, find?, ih]
      split <;> rfl

/-- What may follow a keyword stands one level deeper. -/
theorem Placed.find {keyword : Keyword} {word : String} (placed : grammar.Placed level)
    (found : grammar.find? word = some (keyword, below)) :
    keyword.level = level ∧ (keyword.traits.root = true ↔ level = 0) ∧
      below.Placed (level + 1) := by
  induction grammar with
  | nil => cases found
  | cons first inside beside _ ih =>
      obtain ⟨here, root, deeper, others⟩ := placed
      rw [find?] at found
      split at found
      · cases found
        exact ⟨here, root, deeper⟩
      · exact ih others found

theorem Placed.addTwin (placed : grammar.Placed level) (name description template : String) :
    (grammar.addTwin name description template).Placed level := by
  unfold Grammar.addTwin
  split
  · exact placed
  · rename_i keyword below found
    split
    · exact placed
    · obtain ⟨here, root, deeper⟩ := placed.find found
      exact placed_append.mpr ⟨placed, here, root, deeper, trivial⟩

theorem preorder_reverse (keyword : Keyword) (below beside : Grammar) :
    (cons keyword below beside).preorder.reverse =
      beside.preorder.reverse ++ (keyword :: below.preorder).reverse := by
  rw [preorder, ← List.cons_append, List.reverse_append]

/-! ### The tree of an outline -/

theorem head_preorder (placed : grammar.Placed level) :
    ∀ keyword ∈ grammar.preorder.head?, keyword.level = level := by
  cases grammar with
  | nil => nofun
  | cons keyword below beside =>
      rintro _ ⟨⟩
      exact placed.1

theorem row_head_ofOutline (outline : List Keyword) :
    (ofOutline outline).row.head? = outline.head? := by
  cases outline <;> rfl

/-- A keyword takes below it what is deeper, and no more. -/
theorem deeper_append (placed : below.Placed (level + 1))
    (shallow : ∀ keyword ∈ more.row.head?, keyword.level ≤ level) :
    (below.append more).deeper level = below ∧ (below.append more).afterDeeper level = more := by
  induction below with
  | nil =>
      cases more with
      | nil => exact ⟨rfl, rfl⟩
      | cons keyword inside beside =>
          have level : ¬ level < keyword.level := Nat.not_lt.mpr (shallow keyword rfl)
          exact ⟨if_neg level, if_neg level⟩
  | cons keyword inside beside _ ih =>
      obtain ⟨here, -, -, others⟩ := placed
      have deep : level < keyword.level := by omega
      obtain ⟨taken, left⟩ := ih others
      rw [append, deeper, afterDeeper, if_pos deep, if_pos deep, taken, left]
      exact ⟨rfl, rfl⟩

theorem ofOutline_preorder_append {rest : List Keyword} (placed : grammar.Placed level)
    (shallow : ∀ keyword ∈ rest.head?, keyword.level ≤ level) :
    ofOutline (grammar.preorder ++ rest) = grammar.append (ofOutline rest) := by
  induction grammar generalizing level rest with
  | nil => rfl
  | cons keyword below beside deeper further =>
      obtain ⟨rfl, -, inside, others⟩ := placed
      have next : ∀ other ∈ (beside.preorder ++ rest).head?, other.level ≤ keyword.level := by
        intro other head
        rcases first : beside.preorder with _ | ⟨one, more⟩
        · rw [first] at head
          exact shallow other head
        · rw [first] at head
          exact Nat.le_of_eq (head_preorder others other (by rw [first]; exact head))
      have read : ofOutline (below.preorder ++ (beside.preorder ++ rest)) =
          below.append (ofOutline (beside.preorder ++ rest)) :=
        deeper inside fun other head => Nat.le_succ_of_le (next other head)
      rw [← row_head_ofOutline] at next
      obtain ⟨taken, left⟩ := deeper_append inside next
      rw [preorder, List.cons_append, List.append_assoc, ofOutline, read,
        taken, left, further others shallow, append]

/-- The tree is built from its preorder. -/
theorem ofOutline_preorder (placed : grammar.Placed level) :
    ofOutline grammar.preorder = grammar := by
  have read : ofOutline (grammar.preorder ++ []) = grammar.append (ofOutline []) :=
    ofOutline_preorder_append placed nofun
  rwa [List.append_nil, ofOutline, append_nil] at read

/-! ### One more entry -/

theorem nextLevel_append {later earlier : List Keyword} (filled : later ≠ []) :
    nextLevel (later ++ earlier) = nextLevel later := by
  cases later with
  | nil => exact absurd rfl filled
  | cons latest later => rfl

/-- The next keyword can stand below all that are open. -/
theorem nextLevel_preorder (placed : grammar.Placed level) (filled : grammar ≠ nil) :
    nextLevel grammar.preorder.reverse = level + grammar.depth := by
  fun_induction depth grammar generalizing level with
  | case1 => exact absurd rfl filled
  | case2 keyword below ih =>
      obtain ⟨here, -, inside, -⟩ := placed
      rw [preorder, preorder, List.append_nil, List.reverse_cons]
      cases below with
      | nil => rw [preorder, depth, ← here]; rfl
      | cons other inner beside =>
          rw [nextLevel_append (by simp [preorder]), ih inside nofun]
          omega
  | case3 keyword inside next below beside ih =>
      rw [preorder_reverse, nextLevel_append (by simp [preorder])]
      exact ih placed.2.2.2 nofun

theorem nextLevel_eq_depth (placed : grammar.Placed 0) :
    nextLevel grammar.preorder.reverse = grammar.depth := by
  cases grammar with
  | nil => rfl
  | cons keyword below beside => rw [nextLevel_preorder placed nofun, Nat.zero_add]

theorem placed_extend (placed : grammar.Placed level)
    (keeps : ∀ keyword, (change keyword).level = keyword.level ∧
      (change keyword).traits = keyword.traits)
    (fits : more.Placed (level + place + 1)) : (grammar.extend change more place).Placed level := by
  fun_induction extend change grammar more place generalizing level with
  | case1 => exact placed
  | case2 keyword below =>
      obtain ⟨here, root, inside, others⟩ := placed
      obtain ⟨same, traits⟩ := keeps keyword
      exact ⟨same.trans here, traits ▸ root, placed_append.mpr ⟨inside, fits⟩, others⟩
  | case3 keyword below place ih =>
      obtain ⟨here, root, inside, others⟩ := placed
      have deeper : level + 1 + place + 1 = level + (place + 1) + 1 := by omega
      exact ⟨here, root, ih inside (deeper ▸ fits), others⟩
  | case4 keyword below next inside beside place ih =>
      obtain ⟨here, root, inside, others⟩ := placed
      exact ⟨here, root, inside, ih others fits⟩

theorem preorder_extend (opened : place < grammar.depth) :
    (grammar.extend id more place).preorder = grammar.preorder ++ more.preorder := by
  fun_induction extend id grammar more place with
  | case1 => cases opened
  | case2 keyword below => simp [preorder]
  | case3 keyword below place ih =>
      rw [preorder, ih (Nat.lt_of_succ_lt_succ opened)]
      simp [preorder]
  | case4 keyword below next inside beside place ih =>
      rw [preorder, ih opened]
      simp [preorder]

section Slots

variable {slot : Slot} {later earlier : List Keyword}

theorem giveSlot_append (deeper : ∀ keyword ∈ later, keyword.level ≠ level) :
    giveSlot level slot (later ++ earlier) = later ++ giveSlot level slot earlier := by
  induction later with
  | nil => rfl
  | cons latest later ih =>
      obtain ⟨first, others⟩ := List.forall_mem_cons.mp deeper
      rw [List.cons_append, giveSlot, if_neg first, ih others, List.cons_append]

theorem giveSlot_append_left (opened : ∃ keyword ∈ later, keyword.level = level) :
    giveSlot level slot (later ++ earlier) = giveSlot level slot later ++ earlier := by
  induction later with
  | nil => obtain ⟨_, ⟨⟩, _⟩ := opened
  | cons latest later ih =>
      rw [List.cons_append, giveSlot, giveSlot]
      by_cases here : latest.level = level
      · rw [if_pos here, if_pos here, List.cons_append]
      · have further : ∃ keyword ∈ later, keyword.level = level := by
          obtain ⟨keyword, member, same⟩ := opened
          rcases List.mem_cons.mp member with rfl | later
          · exact absurd same here
          · exact ⟨keyword, later, same⟩
        rw [if_neg here, if_neg here, ih further, List.cons_append]

end Slots

theorem le_level_of_mem {keyword : Keyword} (placed : grammar.Placed level)
    (member : keyword ∈ grammar.preorder) : level ≤ keyword.level := by
  induction grammar generalizing level with
  | nil => cases member
  | cons first below beside deeper further =>
      obtain ⟨here, -, inside, others⟩ := placed
      rcases List.mem_cons.mp member with rfl | later
      · exact Nat.le_of_eq here.symm
      · rcases List.mem_append.mp later with within | next
        · exact Nat.le_of_succ_le (deeper inside within)
        · exact further others next

theorem exists_open (placed : grammar.Placed level) (opened : place < grammar.depth) :
    ∃ keyword ∈ grammar.preorder, keyword.level = level + place := by
  fun_induction depth grammar generalizing level place with
  | case1 => cases opened
  | case2 keyword below ih =>
      obtain ⟨here, -, inside, -⟩ := placed
      cases place with
      | zero => exact ⟨keyword, List.mem_cons_self, here⟩
      | succ place =>
          obtain ⟨other, member, same⟩ := ih inside (Nat.lt_of_succ_lt_succ opened)
          exact ⟨other, List.mem_cons_of_mem _ (List.mem_append_left _ member), by omega⟩
  | case3 keyword inside next below beside ih =>
      obtain ⟨other, member, same⟩ := ih placed.2.2.2 opened
      exact ⟨other, List.mem_cons_of_mem _ (List.mem_append_right _ member), same⟩

/-- The latest keyword of a level is the open one. -/
theorem giveSlot_preorder (slot : Slot) (placed : grammar.Placed level)
    (opened : place < grammar.depth) :
    giveSlot (level + place) slot grammar.preorder.reverse =
      (grammar.extend (addSlot slot) nil place).preorder.reverse := by
  fun_induction extend (addSlot slot) grammar nil place generalizing level with
  | case1 => cases opened
  | case2 keyword below =>
      -- all that came later stands deeper
      obtain ⟨here, -, inside, -⟩ := placed
      have deeper : ∀ other ∈ below.preorder.reverse, other.level ≠ level + 0 := by
        intro other member
        have low := le_level_of_mem inside (List.mem_reverse.mp member)
        omega
      simp only [append_nil, preorder, List.append_nil, List.reverse_cons]
      rw [giveSlot_append deeper, giveSlot, Nat.add_zero, if_pos here]
      rfl
  | case3 keyword below place ih =>
      obtain ⟨-, -, inside, -⟩ := placed
      have within : place < below.depth := Nat.lt_of_succ_lt_succ opened
      have deeper : level + (place + 1) = level + 1 + place := by omega
      obtain ⟨other, member, same⟩ := exists_open inside within
      simp only [preorder, List.append_nil, List.reverse_cons]
      rw [deeper, giveSlot_append_left ⟨other, List.mem_reverse.mpr member, same⟩,
        ih inside within]
  | case4 keyword below next inside beside place ih =>
      obtain ⟨-, -, -, others⟩ := placed
      obtain ⟨other, member, same⟩ := exists_open others opened
      rw [preorder_reverse keyword below, preorder_reverse keyword below,
        giveSlot_append_left ⟨other, List.mem_reverse.mpr member, same⟩, ih others opened]

theorem readSlot_fits {text : List Char} {entry : Entry} {depth : Nat}
    (read : readSlot depth level text = .ok entry) : entry.Fits depth := by
  unfold readSlot at read
  split at read
  · cases read
  · rename_i placed
    dsimp only at read
    split at read
    · cases read
    · cases read
      show level - 1 < depth
      omega

theorem readKeyword_fits {text : List Char} {entry : Entry} {depth : Nat}
    (read : readKeyword depth level text = .ok entry) : entry.Fits depth := by
  unfold readKeyword at read
  split at read
  · cases read
  · rename_i placed
    dsimp only at read
    split at read
    · cases read
    · split at read
      · cases read
      · rename_i traits _
        split at read
        · cases read
        · rename_i root
          cases read
          have same : traits.root = decide (level = 0) := Decidable.not_not.mp root
          exact ⟨Nat.not_lt.mp placed, by simp [same]⟩

/-- What is entered fits where it is read. -/
theorem readEntry_fits {line : List Char} {entry : Entry} {depth : Nat}
    (read : readEntry depth line = .ok (some entry)) : entry.Fits depth := by
  unfold readEntry at read
  dsimp only at read
  split at read
  · cases read
  · split at read
    · cases read
    · obtain ⟨entered, kind, same⟩ := Outcome.map_eq_ok.mp read
      cases same
      split at kind
      · exact readSlot_fits kind
      · exact readKeyword_fits kind

/-- An entry is added to the outline and to its tree alike. -/
theorem enter_preorder {entry : Entry} (placed : grammar.Placed 0)
    (fits : entry.Fits grammar.depth) :
    enter grammar.preorder.reverse entry = (grammar.entered entry).preorder.reverse ∧
      (grammar.entered entry).Placed 0 := by
  cases entry with
  | keyword keyword =>
      obtain ⟨within, root⟩ := fits
      have single {level : Nat} (here : keyword.level = level) :
          (cons keyword nil nil).Placed level := ⟨here, here ▸ root, trivial, trivial⟩
      rw [entered]
      split <;> rename_i here
      · refine ⟨?_, placed_append.mpr ⟨placed, single here⟩⟩
        simp [enter, preorder]
      · constructor
        · rw [preorder_extend (by omega)]
          simp [enter, preorder]
        · exact placed_extend placed (fun _ => ⟨rfl, rfl⟩) (single (by omega))
  | slot level slot =>
      constructor
      · rw [entered, enter, ← giveSlot_preorder slot placed fits, Nat.zero_add]
      · exact placed_extend placed (fun _ => ⟨rfl, rfl⟩) trivial

end Rollout.Grammar
