import Rollout.Proofs.Grammar.Forest

/-!
What stands below a second name mirrors what stands below the first: keyword by keyword the same, in
the same order, under numbers of its own. What was there before stays as it is.
-/

namespace Rollout.Grammar

namespace Linked

/-- The keywords below a root and those below its twin are the same ones, numbered and linked apart;
the two roots differ in name and description. -/
structure Mirrors (linked : Linked) (source twin : Nat) (name description : String)
    (copy : Nat → Nat) : Prop where
  top : copy source = twin
  reached : ∀ number, linked.Reaches twin number ↔
    ∃ original, linked.Reaches source original ∧ copy original = number
  injective : ∀ one other, linked.Reaches source one → linked.Reaches source other →
    copy one = copy other → one = other
  apart : ∀ number, linked.Reaches source number → ¬ linked.Reaches twin number
  alike : ∀ original node, linked.Reaches source original →
    linked.nodes[original]? = some node → linked.nodes[copy original]? = some
      { keyword :=
          if original = source then
            { node.keyword with name := name, description := description }
          else node.keyword
        parent := node.parent.map copy
        children := node.children.map copy }

variable {linked later : Linked} {keyword : Keyword} {below : Grammar} {source : Nat}

theorem Holds.mono {entries : List (Nat × Node)} (holds : linked.Holds entries)
    (kept : linked.nodes <+: later.nodes) : later.Holds entries := by
  obtain ⟨more, same⟩ := kept
  intro entry member
  have held := holds entry member
  rw [← same, List.getElem?_append_left (List.getElem?_eq_some_iff.mp held).1, held]

/-- A root reaches the keywords that were numbered with it. -/
theorem reaches_iff (holds : linked.Holds ((cons keyword below nil).numbered none source))
    (placed : (cons keyword below nil).Placed 0) (number : Nat) :
    linked.Reaches source number ↔
      source ≤ number ∧ number < source + (cons keyword below nil).size := by
  constructor
  · intro reaches
    suffices held : ∃ node, (number, node) ∈ (cons keyword below nil).numbered none source by
      obtain ⟨node, member⟩ := held
      exact mem_numbered_bounds member
    induction reaches with
    | refl => exact ⟨_, List.mem_cons_self⟩
    | tail _ step ih =>
        obtain ⟨node, member⟩ := ih
        obtain ⟨other, held, listed⟩ := step
        rw [holds _ member] at held
        cases held
        obtain ⟨child, within, -⟩ := listed_numbered member listed
        exact ⟨child, within⟩
  · intro within
    obtain ⟨node, member⟩ := exists_numbered none within
    clear within
    -- links up lead to smaller numbers
    induction number using Nat.strongRecOn generalizing node with
    | ind number ih =>
        rcases row_or_under placed member with row | ⟨upper, holder, under⟩
        · obtain rfl := List.mem_singleton.mp row.member
          exact .refl
        · exact (ih upper under.less holder under.held).tail
            ⟨holder, holds _ under.held, under.listed⟩

theorem pick_mono {word : String} {numbers : List Nat} {result : Option Nat}
    (kept : linked.nodes <+: later.nodes) (picked : linked.pick word numbers = some result) :
    later.pick word numbers = some result := by
  induction numbers with
  | nil => exact picked
  | cons number rest ih =>
      rw [pick] at picked ⊢
      obtain ⟨node, held, chosen⟩ := Option.bind_eq_some_iff.mp picked
      have entry : linked.Holds [(number, node)] := List.forall_mem_singleton.mpr held
      have still := entry.mono kept _ List.mem_cons_self
      rw [still, Option.bind_eq_bind, Option.bind_some]
      by_cases same : sameWord node.keyword.name word = true
      · rw [if_pos same] at chosen ⊢
        exact chosen
      · rw [if_neg same] at chosen ⊢
        exact ih chosen

theorem pick_append (word : String) (numbers others : List Nat) :
    linked.pick word (numbers ++ others) = (linked.pick word numbers).bind fun result =>
      match result with
      | some number => some (some number)
      | none => linked.pick word others := by
  induction numbers with
  | nil => rfl
  | cons number rest ih =>
      rw [List.cons_append, pick, pick]
      cases linked.nodes[number]? with
      | none => rfl
      | some node =>
          simp only [Option.bind_eq_bind, Option.bind_some]
          split
          · rfl
          · exact ih

end Linked

variable {grammar more below : Grammar} {parent : Option Nat} {next : Nat}

theorem rowFrom_shift (shift : Nat) :
    grammar.rowFrom (next + shift) = (grammar.rowFrom next).map (· + shift) := by
  induction grammar generalizing next with
  | nil => rfl
  | cons keyword below beside _ further =>
      have moved : next + shift + 1 + below.size = next + 1 + below.size + shift := by omega
      rw [rowFrom, rowFrom, moved, further, List.map_cons]

/-- A keyword among others that are numbered from elsewhere on. -/
def Node.shifted (shift : Nat) (node : Node) : Node :=
  { node with
    parent := node.parent.map (· + shift), children := node.children.map (· + shift) }

theorem numbered_shift (grammar : Grammar) (parent : Option Nat) (next shift : Nat) :
    grammar.numbered (parent.map (· + shift)) (next + shift) =
      (grammar.numbered parent next).map fun entry =>
        (entry.1 + shift, entry.2.shifted shift) := by
  induction grammar generalizing parent next with
  | nil => rfl
  | cons keyword below beside deeper further =>
      have inside : next + shift + 1 = next + 1 + shift := by omega
      have outside : next + shift + 1 + below.size = next + 1 + below.size + shift := by omega
      have first := @deeper (some next) (next + 1)
      rw [Option.map_some] at first
      rw [numbered, numbered, outside, further, inside, first, rowFrom_shift, List.map_cons,
        List.map_append]
      rfl

/-- A copy with another root mirrors what was numbered before it. -/
theorem mirrors_numbered {linked : Linked} {keyword : Keyword} {source twin : Nat}
    {name description : String} (placed : (cons keyword below nil).Placed 0)
    (holds : linked.Holds ((cons keyword below nil).numbered none source))
    (copies : linked.Holds ((cons { keyword with name := name, description := description }
      below nil).numbered none twin))
    (behind : source + (cons keyword below nil).size ≤ twin) :
    linked.Mirrors source twin name description (· + (twin - source)) := by
  obtain ⟨shift, rfl⟩ : ∃ shift, twin = source + shift := ⟨twin - source, by omega⟩
  have here := Linked.reaches_iff holds placed
  have there := Linked.reaches_iff copies placed
  have same : (cons { keyword with name := name, description := description } below nil).size =
    (cons keyword below nil).size := rfl
  rw [same] at there
  rw [Nat.add_sub_cancel_left]
  refine ⟨rfl, ?_, ?_, ?_, ?_⟩
  · intro number
    rw [there]
    constructor
    · intro within
      exact ⟨number - shift, (here _).mpr (by omega), by omega⟩
    · rintro ⟨original, reaches, rfl⟩
      have within := (here _).mp reaches
      omega
  · intro one other _ _ moved
    exact Nat.add_right_cancel moved
  · intro number reaches again
    have within := (here _).mp reaches
    have further := (there _).mp again
    omega
  · intro original node reaches held
    obtain ⟨other, member⟩ := exists_numbered none ((here _).mp reaches)
    obtain rfl : other = node := Option.some.inj ((holds _ member).symm.trans held)
    have moved : source + shift + 1 = source + 1 + shift := by omega
    rw [numbered_single] at member copies
    rcases List.mem_cons.mp member with top | inner
    · cases top
      rw [moved, rowFrom_shift] at copies
      rw [if_pos rfl]
      exact copies _ List.mem_cons_self
    · have bounds := mem_numbered_bounds inner
      have deeper : source + 1 ≤ original := bounds.1
      have shifted := numbered_shift below (some source) (source + 1) shift
      rw [Option.map_some] at shifted
      rw [moved, shifted] at copies
      rw [if_neg (by omega)]
      exact copies _ (List.mem_cons_of_mem _ (List.mem_map_of_mem inner))

/-! ### Second names -/

/-- The second names that a grammar gets, each with its description and the name that it mirrors. -/
def secondNames : List (String × String × String) :=
  [("drop", "Drop database objects", "create"), ("revoke", "Revoke privileges", "grant")]

theorem addTwin_append (grammar : Grammar) (name description template : String) :
    ∃ more, grammar.addTwin name description template = grammar.append more := by
  unfold addTwin
  split
  · exact ⟨nil, (append_nil grammar).symm⟩
  · rename_i keyword below found
    split
    · exact ⟨nil, (append_nil grammar).symm⟩
    · exact ⟨_, rfl⟩

theorem addTwin_of_find {name description template : String} {keyword : Keyword}
    (found : grammar.find? template = some (keyword, below)) (free : grammar.find? name = none) :
    grammar.addTwin name description template = grammar.append
      (cons { keyword with name := name, description := description } below nil) := by
  rw [addTwin, found, free]
  rfl

/-- A second name does not take another. -/
theorem find_addTwin_of_none {name other : String} (description template : String)
    (free : grammar.find? other = none) (differ : sameWord name other = false) :
    (grammar.addTwin name description template).find? other = none := by
  unfold addTwin
  split
  · exact free
  · split
    · exact free
    · rw [find_append, free, find?, if_neg (by simp [differ])]
      rfl

/-- Behind what a text declares stands a copy of what has a second name, unless the name is taken;
what stands between and after has other names. -/
theorem addTwins_of_find {name description template : String} {keyword : Keyword}
    (listed : (name, description, template) ∈ secondNames)
    (found : grammar.find? template = some (keyword, below)) (free : grammar.find? name = none) :
    ∃ between last : Grammar, (grammar.append between).find? name = none ∧
      grammar.addTwins = (grammar.append between).append
        ((cons { keyword with name := name, description := description } below nil).append
          last) := by
  unfold addTwins
  rcases List.mem_cons.mp listed with same | listed
  · cases same
    obtain ⟨last, added⟩ := addTwin_append
      (grammar.addTwin "drop" "Drop database objects" "create") "revoke" "Revoke privileges" "grant"
    refine ⟨nil, last, by rwa [append_nil], ?_⟩
    rw [added, addTwin_of_find found free, append_nil, append_assoc]
  · cases List.mem_singleton.mp listed
    obtain ⟨between, added⟩ := addTwin_append grammar "drop" "Drop database objects" "create"
    have still := find_addTwin_of_none "Drop database objects" "create" free
      (by decide : sameWord "drop" "revoke" = false)
    rw [added] at still
    refine ⟨between, nil, still, ?_⟩
    have led : (grammar.append between).find? "grant" = some (keyword, below) := by
      rw [find_append, found]
      rfl
    rw [append_nil, added, addTwin_of_find led still]

theorem nodes_append (grammar more : Grammar) :
    (grammar.append more).linked.nodes =
      grammar.linked.nodes ++ (more.numbered none grammar.size).map (·.2) := by
  rw [linked, linked, numbered_append, Nat.zero_add, List.map_append]

theorem roots_append :
    (grammar.append more).linked.roots = grammar.linked.roots ++ more.rowFrom grammar.size := by
  rw [linked, linked, rowFrom_append, Nat.zero_add]

/-- Looking up a name among the links finds what it leads to in the grammar. -/
theorem root_eq_some {word : String} {number : Nat}
    (root : grammar.linked.root word = some (some number)) :
    ∃ keyword below, grammar.find? word = some (keyword, below) ∧
      grammar.linked.Holds ((cons keyword below nil).numbered none number) := by
  have picked := Linked.pick_numbered (holds_linked grammar) word
  have same : grammar.linked.pick word (grammar.rowFrom 0) = some (some number) := root
  cases found : grammar.find? word with
  | none =>
      rw [found] at picked
      rw [same] at picked
      cases picked
  | some entry =>
      obtain ⟨keyword, below⟩ := entry
      rw [found] at picked
      obtain ⟨other, picked, holds⟩ := picked
      rw [same] at picked
      cases picked
      exact ⟨keyword, below, rfl, holds⟩

theorem root_eq_none {word : String} :
    grammar.linked.root word = some none ↔ grammar.find? word = none := by
  have picked := Linked.pick_numbered (holds_linked grammar) word
  cases found : grammar.find? word with
  | none =>
      rw [found] at picked
      exact ⟨fun _ => rfl, fun _ => picked⟩
  | some entry =>
      rw [found] at picked
      obtain ⟨number, picked, -⟩ := picked
      constructor
      · intro root
        have same : grammar.linked.root word = some (some number) := picked
        rw [root] at same
        cases same
      · nofun

/-- What has a second name is mirrored under it. -/
theorem addTwins_mirrors {name description template : String} {source : Nat}
    (placed : grammar.Placed 0) (listed : (name, description, template) ∈ secondNames)
    (root : grammar.linked.root template = some (some source))
    (free : grammar.linked.root name = some none) :
    grammar.addTwins.linked.root template = some (some source) ∧
      grammar.linked.nodes <+: grammar.addTwins.linked.nodes ∧
        (∀ number, grammar.addTwins.linked.Reaches source number ↔
          grammar.linked.Reaches source number) ∧
          ∃ twin copy, grammar.addTwins.linked.root name = some (some twin) ∧
            grammar.addTwins.linked.Mirrors source twin name description copy := by
  obtain ⟨keyword, below, found, holds⟩ := root_eq_some root
  obtain ⟨between, last, still, added⟩ := addTwins_of_find listed found (root_eq_none.mp free)
  obtain ⟨here, marked, inside⟩ := placed.find found
  have alone : (cons keyword below nil).Placed 0 := ⟨here, marked, inside, trivial⟩
  have kept : grammar.linked.nodes <+: grammar.addTwins.linked.nodes := by
    rw [added, append_assoc, nodes_append]
    exact List.prefix_append _ _
  have copies : grammar.addTwins.linked.Holds
      ((cons { keyword with name := name, description := description } below nil).numbered none
        (grammar.append between).size) := by
    intro entry member
    apply holds_linked
    rw [added, numbered_append (grammar.append between), numbered_append (cons _ _ _), Nat.zero_add]
    exact List.mem_append_right _ (List.mem_append_left _ member)
  have behind : source + (cons keyword below nil).size ≤ (grammar.append between).size := by
    have within := holds.length (by simp only [size]; omega)
    rw [length_linked] at within
    rw [size_append]
    omega
  refine ⟨?_, kept, ?_, _, _, ?_, mirrors_numbered alone (holds.mono kept) copies behind⟩
  · have first := Linked.pick_mono kept root
    rw [Linked.root, added, append_assoc, roots_append, Linked.pick_append, ← append_assoc, ← added,
      first]
    rfl
  · intro number
    rw [Linked.reaches_iff holds alone, Linked.reaches_iff (holds.mono kept) alone]
  · have longer : (grammar.append between).linked.nodes <+: grammar.addTwins.linked.nodes := by
      rw [added, nodes_append (grammar.append between)]
      exact List.prefix_append _ _
    have absent := Linked.pick_mono longer (root_eq_none.mpr still)
    have itself : sameWord name name = true := by simp [sameWord]
    rw [Linked.root, added, roots_append, Linked.pick_append, ← added, absent, Option.bind_some,
      rowFrom_append, rowFrom, List.cons_append, Linked.pick, copies _ List.mem_cons_self]
    simp only [Option.bind_eq_bind, Option.bind_some]
    rw [if_pos itself]

end Rollout.Grammar
