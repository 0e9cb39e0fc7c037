import Rollout.Grammar.Linked
import Rollout.Proofs.Grammar.Outline

/-!
Numbering a grammar in preorder gives it its links. Reading a text into a grammar with links comes
to the same, with the copies for second names, so that no number is looked up in vain.
-/

namespace Rollout.Grammar

/-- The numbers of the first row, if keywords are numbered in preorder from `next` on. -/
def rowFrom (next : Nat) : Grammar → List Nat
  | nil => []
  | cons _ below beside => next :: beside.rowFrom (next + 1 + below.size)

/-- The keywords with their numbers and links, the first row below the given parent. -/
def numbered (parent : Option Nat) (next : Nat) : Grammar → List (Nat × Node)
  | nil => []
  | cons keyword below beside =>
      (next, ⟨keyword, parent, below.rowFrom (next + 1)⟩) ::
        (below.numbered (some next) (next + 1) ++ beside.numbered parent (next + 1 + below.size))

def linked (grammar : Grammar) : Linked :=
  ⟨(grammar.numbered none 0).map (·.2), grammar.rowFrom 0⟩

/-- The numbers of the keywords that are open. -/
def spine (next : Nat) : Grammar → List Nat
  | nil => []
  | cons _ below nil => next :: below.spine (next + 1)
  | cons _ below (cons keyword inside beside) =>
      spine (next + 1 + below.size) (cons keyword inside beside)

def draft (grammar : Grammar) : Linked.Draft := ⟨grammar.linked, grammar.spine 0⟩

/-- The keywords have these numbers and links. -/
def Linked.Holds (linked : Linked) (entries : List (Nat × Node)) : Prop :=
  ∀ entry ∈ entries, linked.nodes[entry.1]? = some entry.2

def changeAt (number : Nat) (change : Node → Node) (entries : List (Nat × Node)) :
    List (Nat × Node) :=
  entries.map fun entry => if entry.1 = number then (entry.1, change entry.2) else entry

variable {grammar more below : Grammar} {parent above : Option Nat} {next place owner : Nat}

/-! ### Numbers -/

theorem numbers_numbered (grammar : Grammar) (parent : Option Nat) (next : Nat) :
    (grammar.numbered parent next).map (·.1) = List.range' next grammar.size := by
  induction grammar generalizing parent next with
  | nil => rfl
  | cons keyword below beside deeper further =>
      rw [numbered, List.map_cons, List.map_append, deeper, further, size, Nat.add_assoc 1,
        Nat.add_comm 1, List.range'_succ, List.range'_append_1]

theorem add_size_single (keyword : Keyword) :
    next + (cons keyword below nil).size = next + 1 + below.size := by
  simp only [size]
  omega

theorem numbered_single (keyword : Keyword) :
    (cons keyword below nil).numbered parent next =
      (next, ⟨keyword, parent, below.rowFrom (next + 1)⟩) ::
        below.numbered (some next) (next + 1) := by
  rw [numbered, numbered, List.append_nil]

theorem length_numbered : (grammar.numbered parent next).length = grammar.size := by
  have numbers := congrArg List.length (numbers_numbered grammar parent next)
  simpa using numbers

theorem mem_numbered_bounds {entry : Nat × Node} (member : entry ∈ grammar.numbered parent next) :
    next ≤ entry.1 ∧ entry.1 < next + grammar.size := by
  have number : entry.1 ∈ (grammar.numbered parent next).map (·.1) := List.mem_map_of_mem member
  rw [numbers_numbered, List.mem_range'_1] at number
  exact number

theorem exists_numbered {number : Nat} (parent : Option Nat)
    (within : next ≤ number ∧ number < next + grammar.size) :
    ∃ node, (number, node) ∈ grammar.numbered parent next := by
  have member : number ∈ (grammar.numbered parent next).map (·.1) := by
    rw [numbers_numbered]
    exact List.mem_range'_1.mpr within
  obtain ⟨entry, held, rfl⟩ := List.mem_map.mp member
  exact ⟨entry.2, held⟩

/-- In the list of all keywords each stands where its number says. -/
theorem getElem_numbered {number : Nat} {entry : Nat × Node}
    (found : (grammar.numbered parent 0)[number]? = some entry) : entry.1 = number := by
  have numbers := congrArg (·[number]?) (numbers_numbered grammar parent 0)
  rw [List.getElem?_map, found] at numbers
  have within : number < grammar.size := by
    rw [← length_numbered]
    exact (List.getElem?_eq_some_iff.mp found).1
  rw [List.getElem?_range' within] at numbers
  simpa using numbers

theorem held_iff {number : Nat} {node : Node} :
    grammar.linked.nodes[number]? = some node ↔ (number, node) ∈ grammar.numbered none 0 := by
  rw [linked, List.getElem?_map, Option.map_eq_some_iff]
  constructor
  · rintro ⟨entry, found, rfl⟩
    rw [← getElem_numbered found]
    exact List.mem_of_getElem? found
  · intro member
    obtain ⟨index, found⟩ := List.getElem?_of_mem member
    obtain rfl := getElem_numbered found
    exact ⟨_, found, rfl⟩

theorem holds_linked (grammar : Grammar) : grammar.linked.Holds (grammar.numbered none 0) :=
  fun _ member => held_iff.mpr member

theorem length_linked : grammar.linked.nodes.length = grammar.size := by
  rw [linked, List.length_map, length_numbered]

theorem mem_rowFrom_bounds {number : Nat} (member : number ∈ grammar.rowFrom next) :
    next ≤ number ∧ number < next + grammar.size := by
  induction grammar generalizing next with
  | nil => cases member
  | cons keyword below beside _ further =>
      rw [size]
      rcases List.mem_cons.mp member with rfl | later
      · omega
      · have bounds := further later
        omega

theorem mem_spine_bounds {number : Nat} (member : number ∈ grammar.spine next) :
    next ≤ number ∧ number < next + grammar.size := by
  fun_induction spine next grammar with
  | case1 => cases member
  | case2 next keyword below ih =>
      simp only [size]
      rcases List.mem_cons.mp member with rfl | later
      · omega
      · have bounds := ih later
        omega
  | case3 next keyword below last inside beside ih =>
      have bounds := ih member
      simp only [size] at bounds ⊢
      omega

theorem length_spine (next : Nat) : (grammar.spine next).length = grammar.depth := by
  fun_induction spine next grammar with
  | case1 => rfl
  | case2 next keyword below ih => rw [List.length_cons, ih, depth]
  | case3 next keyword below last inside beside ih => rw [ih, depth]

/-! ### More behind what stands -/

theorem rowFrom_append :
    (grammar.append more).rowFrom next =
      grammar.rowFrom next ++ more.rowFrom (next + grammar.size) := by
  induction grammar generalizing next with
  | nil => rfl
  | cons keyword below beside _ ih =>
      rw [append, rowFrom, ih, rowFrom, size, List.cons_append]
      simp only [Nat.add_assoc]

theorem numbered_append (grammar more : Grammar) :
    (grammar.append more).numbered parent next =
      grammar.numbered parent next ++ more.numbered parent (next + grammar.size) := by
  induction grammar generalizing next with
  | nil => rfl
  | cons keyword below beside _ ih =>
      rw [append, numbered, ih, numbered, size, List.cons_append, List.append_assoc]
      simp only [Nat.add_assoc]

theorem spine_append_keyword (keyword : Keyword) :
    (grammar.append (cons keyword nil nil)).spine next = [next + grammar.size] := by
  induction grammar generalizing next with
  | nil => rfl
  | cons first below beside _ ih =>
      have last := @ih (next + 1 + below.size)
      rw [size, ← Nat.add_assoc, ← Nat.add_assoc, ← last]
      cases beside <;> rfl

theorem linked_append (keyword : Keyword) (below : Grammar) :
    (grammar.append (cons keyword below nil)).linked =
      ⟨grammar.linked.nodes ++ ((cons keyword below nil).numbered none grammar.size).map (·.2),
        grammar.linked.roots ++ [grammar.size]⟩ := by
  rw [linked, numbered_append, rowFrom_append, Nat.zero_add, List.map_append]
  rfl

theorem rowFrom_extend {change : Keyword → Keyword} :
    (grammar.extend change more place).rowFrom next = grammar.rowFrom next := by
  fun_induction extend change grammar more place generalizing next with
  | case1 => rfl
  | case2 => rfl
  | case3 => rfl
  | case4 keyword below last inside beside place ih =>
      rw [rowFrom, ih]
      rfl

section ChangeAt

variable {change : Node → Node} {entries others : List (Nat × Node)}

theorem changeAt_append :
    changeAt owner change (entries ++ others) =
      changeAt owner change entries ++ changeAt owner change others := List.map_append

theorem changeAt_cons {number : Nat} {node : Node} :
    changeAt owner change ((number, node) :: entries) =
      (number, if number = owner then change node else node) :: changeAt owner change entries := by
  rw [changeAt, List.map_cons]
  split <;> rfl

theorem changeAt_absent (absent : ∀ entry ∈ entries, entry.1 ≠ owner) :
    changeAt owner change entries = entries := by
  have kept : ∀ entry ∈ entries, (if entry.1 = owner then (entry.1, change entry.2) else entry) =
      entry := fun entry member => if_neg (absent entry member)
  exact (List.map_congr_left kept).trans (List.map_id entries)

theorem changeAt_numbered (outside : owner < next ∨ next + grammar.size ≤ owner) :
    changeAt owner change (grammar.numbered parent next) = grammar.numbered parent next := by
  apply changeAt_absent
  intro entry member
  have bounds := mem_numbered_bounds member
  omega

theorem modify_linked :
    grammar.linked.nodes.modify owner change =
      (changeAt owner change (grammar.numbered none 0)).map (·.2) := by
  apply List.ext_getElem?
  intro number
  rw [linked, List.getElem?_modify, List.getElem?_map, List.getElem?_map, changeAt,
    List.getElem?_map]
  cases found : (grammar.numbered none 0)[number]? with
  | none => rfl
  | some entry =>
      obtain rfl := getElem_numbered found
      by_cases same : entry.1 = owner
      · simp [same]
      · simp [same, Ne.symm same]

end ChangeAt

theorem numbered_extend {change : Keyword → Keyword}
    (opened : (grammar.spine next)[place]? = some owner) :
    (grammar.extend change more place).numbered parent next =
      changeAt owner
          (fun node => ⟨change node.keyword, node.parent,
            node.children ++ more.rowFrom (next + grammar.size)⟩)
          (grammar.numbered parent next) ++
        more.numbered (some owner) (next + grammar.size) := by
  -- down the open keywords to the one that gets more; what it gets is numbered last
  fun_induction extend change grammar more place generalizing parent next with
  | case1 => cases opened
  | case2 keyword below =>
      obtain rfl : next = owner := Option.some.inj opened
      rw [add_size_single, numbered_single, numbered_single, changeAt_cons, if_pos rfl,
        changeAt_numbered (.inl (Nat.lt_succ_self next)), rowFrom_append, numbered_append]
      rfl
  | case3 keyword below place ih =>
      have opened : (below.spine (next + 1))[place]? = some owner := opened
      have within := mem_spine_bounds (List.mem_of_getElem? opened)
      rw [add_size_single, numbered_single, numbered_single, changeAt_cons, if_neg (by omega),
        ih opened, rowFrom_extend]
      rfl
  | case4 keyword below first inside beside place ih =>
      have opened : (spine (next + 1 + below.size) (cons first inside beside))[place]? =
        some owner := opened
      have within := mem_spine_bounds (List.mem_of_getElem? opened)
      have last : next + (cons keyword below (cons first inside beside)).size =
          next + 1 + below.size + (cons first inside beside).size := by
        simp only [size]
        omega
      rw [last, numbered, ih opened, numbered.eq_2 _ _ keyword, changeAt_cons, if_neg (by omega),
        changeAt_append,
        changeAt_numbered (.inr (show next + 1 + below.size ≤ owner from within.1))]
      simp

theorem linked_extend {change : Keyword → Keyword}
    (opened : (grammar.spine 0)[place]? = some owner) :
    (grammar.extend change more place).linked =
      ⟨grammar.linked.nodes.modify owner
          (fun node => ⟨change node.keyword, node.parent,
            node.children ++ more.rowFrom grammar.size⟩) ++
          (more.numbered (some owner) grammar.size).map (·.2),
        grammar.linked.roots⟩ := by
  rw [modify_linked, linked, numbered_extend opened, rowFrom_extend, List.map_append,
    Nat.zero_add]
  rfl

theorem spine_beside (keyword : Keyword) {beside : Grammar} (filled : beside ≠ nil) :
    (cons keyword below beside).spine next = beside.spine (next + 1 + below.size) := by
  cases beside with
  | nil => exact absurd rfl filled
  | cons first inside others => rfl

theorem extend_ne_nil {change : Keyword → Keyword} (filled : grammar ≠ nil) :
    grammar.extend change more place ≠ nil := by
  fun_cases extend change grammar more place with
  | case1 => exact absurd rfl filled
  | case2 => nofun
  | case3 => nofun
  | case4 => nofun

theorem spine_extend {change : Keyword → Keyword} :
    (grammar.extend change nil place).spine next = grammar.spine next := by
  fun_induction extend change grammar nil place generalizing next with
  | case1 => rfl
  | case2 keyword below => rw [append_nil, spine, spine]
  | case3 keyword below place ih => rw [spine, ih, spine]
  | case4 keyword below first inside beside place ih =>
      have filled : cons first inside beside ≠ nil := by simp
      rw [spine_beside keyword (extend_ne_nil filled), ih, spine]

theorem spine_extend_keyword (keyword : Keyword) (opened : place < grammar.depth) :
    (grammar.extend id (cons keyword nil nil) place).spine next =
      (grammar.spine next).take (place + 1) ++ [next + grammar.size] := by
  fun_induction extend id grammar (cons keyword nil nil) place generalizing next with
  | case1 => cases opened
  | case2 first below =>
      rw [spine, spine_append_keyword, spine, add_size_single]
      rfl
  | case3 first below place ih =>
      rw [spine, ih (Nat.lt_of_succ_lt_succ opened), spine, add_size_single]
      rfl
  | case4 first below second inside beside place ih =>
      have filled : cons second inside beside ≠ nil := by simp
      rw [spine_beside first (extend_ne_nil filled), ih opened, spine]
      simp only [size, Nat.add_assoc]

/-! ### Reading lines -/

namespace Linked

theorem update_eq {linked : Linked} (within : owner < linked.nodes.length) (change : Node → Node) :
    linked.update? owner change =
      some { linked with nodes := linked.nodes.modify owner change } := if_pos within

theorem modify_append {nodes others : List Node} (within : owner < nodes.length)
    (change : Node → Node) :
    (nodes ++ others).modify owner change = nodes.modify owner change ++ others := by
  induction nodes generalizing owner with
  | nil => cases within
  | cons node nodes ih =>
      cases owner with
      | zero => rfl
      | succ owner =>
          rw [List.cons_append, List.modify_succ_cons, ih (Nat.lt_of_succ_lt_succ within),
            List.modify_succ_cons, List.cons_append]

theorem Draft.enter_draft {entry : Entry} (fits : entry.Fits grammar.depth) :
    grammar.draft.enter entry = some (grammar.entered entry).draft := by
  have held {place : Nat} (opened : place < grammar.depth) :
      ∃ owner, (grammar.spine 0)[place]? = some owner ∧ owner < grammar.linked.nodes.length := by
    rw [← length_spine 0] at opened
    refine ⟨_, List.getElem?_eq_getElem opened, ?_⟩
    rw [length_linked]
    exact Nat.zero_add grammar.size ▸ (mem_spine_bounds (List.getElem_mem opened)).2
  cases entry with
  | keyword keyword =>
      obtain ⟨within, -⟩ := fits
      rw [entered]
      split <;> rename_i here
      · -- a root hangs from nothing
        simp only [draft, Draft.enter, here, List.take_zero, List.getLast?_nil, push, hang]
        rw [linked_append, spine_append_keyword, length_linked, Nat.zero_add]
        rfl
      · rename_i level
        have opened : level < grammar.depth := by omega
        obtain ⟨owner, found, within⟩ := held opened
        have last : ((grammar.spine 0).take (level + 1)).getLast? = some owner := by
          rw [List.getLast?_take, if_neg (Nat.succ_ne_zero level), Nat.add_sub_cancel, found]
          rfl
        have longer : owner < (grammar.linked.push keyword (some owner)).nodes.length := by
          rw [push, List.length_append]
          omega
        simp only [draft, Draft.enter, here, last, hang]
        rw [update_eq longer, push, modify_append within, linked_extend found,
          spine_extend_keyword keyword opened, length_linked, Nat.zero_add]
        rfl
  | slot level slot =>
      obtain ⟨owner, found, within⟩ := held fits
      rw [entered]
      simp only [draft, Draft.enter, found]
      rw [Option.bind_eq_bind, Option.bind_some, update_eq within, linked_extend found,
        spine_extend]
      simp [numbered, rowFrom, addSlot]

/-- The lines of a text are read into links as they are read into an outline. -/
theorem readLines_draft (number : Nat) (lines : List (List Char)) (placed : grammar.Placed 0) :
    match Grammar.readLines number grammar.preorder.reverse lines with
    | .error error => readLines number grammar.draft lines = some (.error error)
    | .ok outline => ∃ last : Grammar, last.Placed 0 ∧ outline = last.preorder.reverse ∧
        readLines number grammar.draft lines = some (.ok last.draft) := by
  induction lines generalizing number grammar with
  | nil => exact ⟨grammar, placed, rfl, rfl⟩
  | cons line rest ih =>
      have opened : grammar.draft.stack.length = grammar.depth := length_spine 0
      rw [Grammar.readLines, nextLevel_eq_depth placed, readLines, opened]
      cases read : readEntry grammar.depth line with
      | error fault => rfl
      | ok found =>
          cases found with
          | none => exact ih (number + 1) placed
          | some entry =>
              have fits := readEntry_fits read
              obtain ⟨same, still⟩ := enter_preorder placed fits
              simp only [same, Draft.enter_draft fits]
              exact ih (number + 1) still

/-! ### Copies -/

variable {linked : Linked} {entries : List (Nat × Node)}

theorem Holds.push (holds : linked.Holds entries) (keyword : Keyword) (parent : Option Nat) :
    (linked.push keyword parent).Holds entries := by
  intro entry member
  have held := holds entry member
  rw [Linked.push, List.getElem?_append_left (List.getElem?_eq_some_iff.mp held).1, held]

theorem holds_numbered_cons {keyword : Keyword} {beside : Grammar} :
    linked.Holds ((cons keyword below beside).numbered above next) ↔
      linked.nodes[next]? = some ⟨keyword, above, below.rowFrom (next + 1)⟩ ∧
        linked.Holds (below.numbered (some next) (next + 1)) ∧
          linked.Holds (beside.numbered above (next + 1 + below.size)) := by
  rw [numbered]
  simp only [Holds, List.forall_mem_cons, List.forall_mem_append]

theorem Holds.modify {change : Node → Node} {others : List Node} (holds : linked.Holds entries)
    (absent : ∀ entry ∈ entries, entry.1 ≠ owner) :
    Holds { linked with nodes := linked.nodes.modify owner change ++ others } entries := by
  intro entry member
  have held := holds entry member
  have within := (List.getElem?_eq_some_iff.mp held).1
  rw [List.getElem?_append_left (by rwa [List.length_modify]),
    List.getElem?_modify_ne _ _ (absent entry member).symm, held]

theorem modify_behind {nodes others : List Node} (node : Node) (change : Node → Node) :
    (nodes ++ node :: others).modify nodes.length change = nodes ++ change node :: others := by
  induction nodes with
  | nil => rfl
  | cons first nodes ih =>
      rw [List.cons_append, List.length_cons, List.modify_succ_cons, ih, List.cons_append]

/-- The grammar with copies of a row at the end, below a keyword that it has. -/
def withCopies (linked : Linked) (owner : Nat) (grammar : Grammar) : Linked :=
  let next := linked.nodes.length
  { linked with nodes :=
      linked.nodes.modify owner (fun node =>
        { node with children := node.children ++ grammar.rowFrom next }) ++
        (grammar.numbered (some owner) next).map (·.2) }

theorem length_withCopies :
    (linked.withCopies owner grammar).nodes.length = linked.nodes.length + grammar.size := by
  rw [withCopies, List.length_append, List.length_modify, List.length_map, length_numbered]

theorem withCopies_append (within : owner < linked.nodes.length) :
    (linked.withCopies owner grammar).withCopies owner more =
      linked.withCopies owner (grammar.append more) := by
  rw [withCopies, length_withCopies, withCopies, withCopies]
  dsimp only
  rw [modify_append (by rwa [List.length_modify]), List.modify_modify_eq, rowFrom_append,
    numbered_append, List.map_append, List.append_assoc]
  simp only [Function.comp_def, List.append_assoc]

theorem clone_of_copies {keyword : Keyword} {before : Nat}
    (held : linked.nodes[next]? = some ⟨keyword, above, below.rowFrom (next + 1)⟩)
    (copies : (linked.push keyword parent).cloneAll before next linked.nodes.length
      (below.rowFrom (next + 1)) =
        some ((linked.push keyword parent).withCopies linked.nodes.length below)) :
    linked.clone before next parent =
      some ({ linked with nodes := linked.nodes ++
        ((cons keyword below nil).numbered parent linked.nodes.length).map (·.2) },
        linked.nodes.length) := by
  rw [clone, held, Option.bind_eq_bind, Option.bind_some]
  dsimp only
  rw [copies, Option.bind_eq_bind, Option.bind_some, withCopies, push]
  dsimp only
  rw [modify_behind, numbered_single, List.length_append]
  simp

/-- Copies of a row, and of all below it, are put below a keyword that has no part in them. -/
theorem cloneAll_numbered {before upper : Nat} (holds : linked.Holds (grammar.numbered above next))
    (later : upper < next) (ends : next + grammar.size ≤ before) (behind : before ≤ owner)
    (within : owner < linked.nodes.length) :
    linked.cloneAll before upper owner (grammar.rowFrom next) =
      some (linked.withCopies owner grammar) := by
  induction grammar generalizing linked above next owner upper with
  | nil =>
      rw [rowFrom, cloneAll, withCopies]
      simp only [rowFrom, numbered, List.map_nil, List.append_nil]
      exact congrArg (fun nodes => some (Linked.mk nodes linked.roots))
        (List.modify_id owner linked.nodes).symm
  | cons keyword below beside deeper further =>
      obtain ⟨held, inside, others⟩ := holds_numbered_cons.mp holds
      rw [size] at ends
      let first := cons keyword below nil
      have copied : linked.clone before next (some owner) =
          some ({ linked with nodes := linked.nodes ++
            (first.numbered (some owner) linked.nodes.length).map (·.2) },
            linked.nodes.length) := by
        refine clone_of_copies held (deeper (inside.push keyword (some owner))
          (Nat.lt_succ_self next) (by omega) (by omega) ?_)
        rw [push, List.length_append]
        exact Nat.lt_succ_self _
      -- the first copy stands behind all numbers, so what is still to be copied is as before
      have rest : (linked.withCopies owner first).cloneAll before upper owner
          (beside.rowFrom (next + 1 + below.size)) =
            some ((linked.withCopies owner first).withCopies owner beside) := by
        apply further
        · apply others.modify
          intro entry member
          have bounds := mem_numbered_bounds member
          omega
        · omega
        · omega
        · exact behind
        · rw [length_withCopies]
          omega
      rw [rowFrom, cloneAll, if_pos ⟨later, by omega⟩, copied]
      simp only [Option.bind_eq_bind, Option.bind_some, hang]
      rw [update_eq (by rw [List.length_append]; omega), modify_append within]
      exact rest.trans (congrArg some (withCopies_append within))

theorem Holds.length (holds : linked.Holds (grammar.numbered above next))
    (filled : 0 < grammar.size) :
    next + grammar.size ≤ linked.nodes.length := by
  have last : next ≤ next + (grammar.size - 1) ∧
      next + (grammar.size - 1) < next + grammar.size := by omega
  obtain ⟨node, member⟩ := exists_numbered above last
  have within := (List.getElem?_eq_some_iff.mp (holds _ member)).1
  omega

/-- A keyword is copied with all below it. -/
theorem clone_numbered {keyword : Keyword}
    (holds : linked.Holds ((cons keyword below nil).numbered above next)) (parent : Option Nat) :
    linked.clone linked.nodes.length next parent =
      some ({ linked with nodes := linked.nodes ++
        ((cons keyword below nil).numbered parent linked.nodes.length).map (·.2) },
        linked.nodes.length) := by
  obtain ⟨held, inside, -⟩ := holds_numbered_cons.mp holds
  have within := holds.length (by simp only [size]; omega)
  rw [add_size_single] at within
  apply clone_of_copies held
  apply cloneAll_numbered (inside.push keyword parent) (Nat.lt_succ_self next) within (Nat.le_refl _)
  rw [push, List.length_append]
  exact Nat.lt_succ_self _

/-- A name is looked up among the numbers of a row as it is in the row. -/
theorem pick_numbered (holds : linked.Holds (grammar.numbered above next)) (word : String) :
    match grammar.find? word with
    | none => linked.pick word (grammar.rowFrom next) = some none
    | some (keyword, below) => ∃ number,
        linked.pick word (grammar.rowFrom next) = some (some number) ∧
          linked.Holds ((cons keyword below nil).numbered above number) := by
  induction grammar generalizing next with
  | nil => rfl
  | cons keyword below beside _ further =>
      obtain ⟨held, inside, others⟩ := holds_numbered_cons.mp holds
      rw [find?, rowFrom, pick, held]
      simp only [Option.bind_eq_bind, Option.bind_some]
      by_cases same : sameWord keyword.name word = true
      · rw [if_pos same]
        exact ⟨next, if_pos same,
          holds_numbered_cons.mpr ⟨held, inside, List.forall_mem_nil _⟩⟩
      · rw [if_neg same, if_neg same]
        exact further others

/-- A second name is entered among the links as it is into the grammar. -/
theorem addTwin_linked (name description template : String) :
    grammar.linked.addTwin name description template =
      some (grammar.addTwin name description template).linked := by
  have source := pick_numbered (holds_linked grammar) template
  have taken := pick_numbered (holds_linked grammar) name
  unfold Linked.addTwin Grammar.addTwin root
  cases found : grammar.find? template with
  | none =>
      rw [found] at source
      have absent : grammar.linked.pick template grammar.linked.roots = some none := source
      rw [absent]
      rfl
  | some entry =>
      obtain ⟨keyword, below⟩ := entry
      rw [found] at source
      obtain ⟨number, picked, holds⟩ := source
      have present : grammar.linked.pick template grammar.linked.roots =
        some (some number) := picked
      rw [present]
      simp only [Option.bind_eq_bind, Option.bind_some]
      cases other : grammar.find? name with
      | some entry =>
          rw [other] at taken
          obtain ⟨number, picked, -⟩ := taken
          have present : grammar.linked.pick name grammar.linked.roots =
            some (some number) := picked
          rw [present]
          rfl
      | none =>
          rw [other] at taken
          have absent : grammar.linked.pick name grammar.linked.roots = some none := taken
          -- the copy is the last, where the links give it its own name and description
          rw [absent, clone_numbered holds]
          simp only [Option.bind_some, Option.isSome_none, Bool.false_eq_true, if_false]
          rw [linked_append, numbered_single, numbered_single, List.map_cons, List.map_cons,
            update_eq (by simp)]
          simp only [Option.bind_some, hang]
          rw [modify_behind, length_linked]

theorem addTwins_linked : grammar.linked.addTwins = some grammar.addTwins.linked := by
  rw [addTwins, addTwin_linked, Option.bind_eq_bind, Option.bind_some, addTwin_linked]
  rfl

/-- What a text declares; the second names are still to be added. -/
theorem declared_eq (text : String) :
    match Grammar.ofText text with
    | .error error => declared text = some (.error error)
    | .ok grammar => ∃ base : Grammar, base.Placed 0 ∧ grammar = base.addTwins ∧
        declared text = some (.ok base.linked) := by
  have drafted := readLines_draft 1 (Text.lineChars text.toList)
    (show nil.Placed 0 from trivial)
  have start : nil.draft = ⟨⟨[], []⟩, []⟩ := rfl
  have nothing : nil.preorder.reverse = [] := rfl
  rw [start, nothing] at drafted
  unfold Grammar.ofText declared
  cases read : Grammar.readLines 1 [] (Text.lineChars text.toList) with
  | error error =>
      rw [read] at drafted
      exact congrArg (· >>= fun read => some (read.map (·.linked))) drafted
  | ok outline =>
      rw [read] at drafted
      obtain ⟨base, placed, rfl, same⟩ := drafted
      refine ⟨base, placed, ?_, congrArg (· >>= fun read => some (read.map (·.linked))) same⟩
      dsimp only
      rw [List.reverse_reverse, ofOutline_preorder placed]

theorem placed_ofText {text : String} (read : Grammar.ofText text = .ok grammar) :
    grammar.Placed 0 := by
  have declared := declared_eq text
  rw [read] at declared
  obtain ⟨base, placed, rfl, -⟩ := declared
  exact (placed.addTwin _ _ _).addTwin _ _ _

/-- A text is read into links as it is read into a grammar; there is always a result. -/
theorem ofText_eq (text : String) :
    ofText text = some ((Grammar.ofText text).map Grammar.linked) := by
  have read := declared_eq text
  unfold ofText
  cases result : Grammar.ofText text with
  | error error =>
      rw [result] at read
      rw [read]
      rfl
  | ok grammar =>
      rw [result] at read
      obtain ⟨base, -, rfl, same⟩ := read
      rw [same, Option.bind_eq_bind, Option.bind_some]
      dsimp only
      rw [addTwins_linked]
      rfl

end Linked

end Rollout.Grammar
