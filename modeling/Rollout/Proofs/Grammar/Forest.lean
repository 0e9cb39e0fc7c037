import Mathlib.Data.List.Nodup
import Mathlib.Logic.ExistsUnique
import Mathlib.Logic.Relation
import Rollout.Proofs.Grammar.Linked

/-!
The keywords of a grammar with links form trees. Links up and links down are the same links, and
each keyword hangs from one root, as deep as its level says.
-/

namespace Rollout.Grammar

namespace Linked

/-- A keyword lists another as one of those right below it. -/
def Lists (linked : Linked) (upper lower : Nat) : Prop :=
  ∃ node, linked.nodes[upper]? = some node ∧ lower ∈ node.children

/-- A keyword names another as the one right above it. -/
def Names (linked : Linked) (lower upper : Nat) : Prop :=
  ∃ node, linked.nodes[lower]? = some node ∧ node.parent = some upper

/-- Links down lead from one keyword to another. -/
def Reaches (linked : Linked) : Nat → Nat → Prop := Relation.ReflTransGen linked.Lists

/-- What stands above a keyword: links up lead through it to a keyword that has none. -/
inductive Above (linked : Linked) : Nat → List Node → Prop where
  | root {number : Nat} {node : Node} (held : linked.nodes[number]? = some node)
      (top : node.parent = none) : Above linked number []
  | under {number parent : Nat} {node upper : Node} {above : List Node}
      (held : linked.nodes[number]? = some node) (link : node.parent = some parent)
      (next : linked.nodes[parent]? = some upper) (further : Above linked parent above) :
      Above linked number (upper :: above)

structure WellFormed (linked : Linked) : Prop where
  inverse : ∀ upper lower, linked.Lists upper lower ↔ linked.Names lower upper
  earlier : ∀ lower upper, linked.Names lower upper → upper < lower
  /-- Each keyword is a root or listed below another, and only once. -/
  once : ∀ number < linked.nodes.length,
    (linked.roots ++ linked.nodes.flatMap (·.children)).count number = 1
  level : ∀ number node, linked.nodes[number]? = some node →
    ∃ above, linked.Above number above ∧ above.length = node.keyword.level
  roots : ∀ number, number ∈ linked.roots ↔
    ∃ node, linked.nodes[number]? = some node ∧ node.parent = none
  marked : ∀ number node, linked.nodes[number]? = some node →
    (node.keyword.traits.root = true ↔ number ∈ linked.roots)
  reached : ∀ number < linked.nodes.length,
    ∃! root, root ∈ linked.roots ∧ linked.Reaches root number
  rootOf : ∀ root ∈ linked.roots, ∀ number, linked.Reaches root number →
    linked.rootOf number = some root

end Linked

variable {grammar : Grammar} {parent : Option Nat} {next level : Nat}

/-! ### One link -/

theorem mem_row {number : Nat} (parent : Option Nat) (member : number ∈ grammar.rowFrom next) :
    ∃ node, (number, node) ∈ grammar.numbered parent next ∧ node.parent = parent := by
  induction grammar generalizing next with
  | nil => cases member
  | cons keyword below beside _ further =>
      rcases List.mem_cons.mp member with rfl | later
      · exact ⟨_, List.mem_cons_self, rfl⟩
      · obtain ⟨node, within, same⟩ := further later
        exact ⟨node, List.mem_cons_of_mem _ (List.mem_append_right _ within), same⟩

/-- What a keyword lists names it. -/
theorem listed_numbered {upper : Nat} {node : Node} {lower : Nat}
    (held : (upper, node) ∈ grammar.numbered parent next) (listed : lower ∈ node.children) :
    ∃ child, (lower, child) ∈ grammar.numbered parent next ∧ child.parent = some upper := by
  induction grammar generalizing parent next with
  | nil => cases held
  | cons keyword below beside deeper further =>
      rw [numbered]
      rcases List.mem_cons.mp held with same | later
      · cases same
        obtain ⟨child, within, same⟩ := mem_row (some upper) listed
        exact ⟨child, List.mem_cons_of_mem _ (List.mem_append_left _ within), same⟩
      · rcases List.mem_append.mp later with inside | outside
        · obtain ⟨child, within, same⟩ := deeper inside
          exact ⟨child, List.mem_cons_of_mem _ (List.mem_append_left _ within), same⟩
        · obtain ⟨child, within, same⟩ := further outside
          exact ⟨child, List.mem_cons_of_mem _ (List.mem_append_right _ within), same⟩

/-- A keyword that stands in the first row, at the given level. -/
structure InRow (grammar : Grammar) (parent : Option Nat) (next level number : Nat)
    (node : Node) : Prop where
  member : number ∈ grammar.rowFrom next
  top : node.parent = parent
  placed : node.keyword.level = level
  root : node.keyword.traits.root = true ↔ level = 0

/-- A keyword that stands right below one with a smaller number. -/
structure Under (entries : List (Nat × Node)) (number : Nat) (node : Node) (upper : Nat)
    (holder : Node) : Prop where
  held : (upper, holder) ∈ entries
  parent : node.parent = some upper
  listed : number ∈ holder.children
  less : upper < number
  level : node.keyword.level = holder.keyword.level + 1
  inner : node.keyword.traits.root = false

theorem Under.mono {entries others : List (Nat × Node)} {number upper : Nat} {node holder : Node}
    (under : Under entries number node upper holder) (kept : entries ⊆ others) :
    Under others number node upper holder := { under with held := kept under.held }

/-- A keyword that names none stands in the first row; any other is listed where it says. -/
theorem row_or_under {number : Nat} {node : Node} (placed : grammar.Placed level)
    (held : (number, node) ∈ grammar.numbered parent next) :
    grammar.InRow parent next level number node ∨
      ∃ upper holder, Under (grammar.numbered parent next) number node upper holder := by
  induction grammar generalizing parent next level with
  | nil => cases held
  | cons keyword below beside deeper further =>
      obtain ⟨here, root, inside, others⟩ := placed
      have first : below.numbered (some next) (next + 1) ⊆
          (cons keyword below beside).numbered parent next := fun entry member =>
        List.mem_cons_of_mem _ (List.mem_append_left _ member)
      have second : beside.numbered parent (next + 1 + below.size) ⊆
          (cons keyword below beside).numbered parent next := fun entry member =>
        List.mem_cons_of_mem _ (List.mem_append_right _ member)
      rcases List.mem_cons.mp held with same | later
      · cases same
        exact .inl ⟨List.mem_cons_self, rfl, here, root⟩
      · rcases List.mem_append.mp later with within | outside
        · rcases deeper inside within with row | ⟨upper, holder, under⟩
          · refine .inr ⟨next, _, List.mem_cons_self, row.top, row.member, ?_, ?_, ?_⟩
            · have bounds := mem_rowFrom_bounds row.member
              omega
            · rw [row.placed, here]
            · rw [Bool.eq_false_iff]
              exact fun marked => absurd (row.root.mp marked) (Nat.succ_ne_zero level)
          · exact .inr ⟨upper, holder, under.mono first⟩
        · rcases further others outside with row | ⟨upper, holder, under⟩
          · exact .inl ⟨List.mem_cons_of_mem _ row.member, row.top, row.placed, row.root⟩
          · exact .inr ⟨upper, holder, under.mono second⟩

/-- Each number stands in the first row or in one list, once. -/
theorem count_numbers (grammar : Grammar) (parent : Option Nat) (next number : Nat) :
    (grammar.rowFrom next ++ ((grammar.numbered parent next).map (·.2)).flatMap (·.children)).count
      number = (List.range' next grammar.size).count number := by
  induction grammar generalizing parent next with
  | nil => rfl
  | cons keyword below beside deeper further =>
      -- the list of the first keyword and the row beside it take the places of two rows
      have first := @deeper (some next) (next + 1)
      have second := @further parent (next + 1 + below.size)
      have all : List.range' next (cons keyword below beside).size =
          next :: (List.range' (next + 1) below.size ++
            List.range' (next + 1 + below.size) beside.size) := by
        rw [size, Nat.add_assoc, Nat.add_comm 1, List.range'_succ, List.range'_append_1]
      rw [all, rowFrom, numbered]
      simp only [List.map_cons, List.map_append, List.flatMap_cons, List.flatMap_append,
        List.count_append, List.cons_append, List.count_cons] at first second ⊢
      omega

/-! ### All links -/

namespace Linked

variable {linked : Linked} {number : Nat} {node : Node}

theorem Above.unique {above others : List Node} (first : linked.Above number above)
    (second : linked.Above number others) : above = others := by
  induction first generalizing others with
  | root held top =>
      cases second with
      | root => rfl
      | under other link =>
          rw [held] at other
          cases other
          rw [top] at link
          cases link
  | under held link next further ih =>
      cases second with
      | root other top =>
          rw [held] at other
          cases other
          rw [link] at top
          cases top
      | under other linkToo nextToo furtherToo =>
          rw [held] at other
          cases other
          rw [link] at linkToo
          cases linkToo
          rw [next] at nextToo
          cases nextToo
          rw [ih furtherToo]

theorem WellFormed.level_eq {above : List Node} (wellFormed : linked.WellFormed)
    (held : linked.nodes[number]? = some node) (way : linked.Above number above) :
    node.keyword.level = above.length := by
  obtain ⟨others, wayToo, length⟩ := wellFormed.level number node held
  rw [← length, wayToo.unique way]

end Linked

section Placed

variable (placed : grammar.Placed 0)

include placed

theorem root_or_under {number : Nat} {node : Node}
    (held : grammar.linked.nodes[number]? = some node) :
    grammar.InRow none 0 0 number node ∨
      ∃ upper holder, Under (grammar.numbered none 0) number node upper holder :=
  row_or_under placed (held_iff.mp held)

theorem lists_iff_names (upper lower : Nat) :
    grammar.linked.Lists upper lower ↔ grammar.linked.Names lower upper := by
  constructor
  · rintro ⟨node, held, member⟩
    obtain ⟨child, within, same⟩ := listed_numbered (held_iff.mp held) member
    exact ⟨child, held_iff.mpr within, same⟩
  · rintro ⟨node, held, same⟩
    rcases root_or_under placed held with row | ⟨other, holder, under⟩
    · rw [row.top] at same
      cases same
    · rw [under.parent] at same
      cases same
      exact ⟨holder, held_iff.mpr under.held, under.listed⟩

theorem lt_of_names {lower upper : Nat} (names : grammar.linked.Names lower upper) :
    upper < lower := by
  obtain ⟨node, held, same⟩ := names
  rcases root_or_under placed held with row | ⟨other, holder, under⟩
  · rw [row.top] at same
    cases same
  · rw [under.parent] at same
    cases same
    exact under.less

theorem mem_roots_iff (number : Nat) : number ∈ grammar.linked.roots ↔
    ∃ node, grammar.linked.nodes[number]? = some node ∧ node.parent = none := by
  constructor
  · intro member
    obtain ⟨node, within, same⟩ := mem_row none member
    exact ⟨node, held_iff.mpr within, same⟩
  · rintro ⟨node, held, same⟩
    rcases root_or_under placed held with row | ⟨other, holder, under⟩
    · exact row.member
    · rw [under.parent] at same
      cases same

theorem marked_iff {number : Nat} {node : Node}
    (held : grammar.linked.nodes[number]? = some node) :
    node.keyword.traits.root = true ↔ number ∈ grammar.linked.roots := by
  rcases root_or_under placed held with row | ⟨upper, holder, under⟩
  · exact ⟨fun _ => row.member, fun _ => row.root.mpr rfl⟩
  · constructor
    · intro marked
      rw [under.inner] at marked
      cases marked
    · intro member
      obtain ⟨other, heldToo, top⟩ := (mem_roots_iff placed number).mp member
      rw [held] at heldToo
      cases heldToo
      rw [under.parent] at top
      cases top

theorem exists_above {number : Nat} {node : Node}
    (held : grammar.linked.nodes[number]? = some node) :
    ∃ above, grammar.linked.Above number above ∧ above.length = node.keyword.level := by
  -- links up lead to smaller numbers
  induction number using Nat.strongRecOn generalizing node with
  | ind number ih =>
      rcases root_or_under placed held with row | ⟨upper, holder, under⟩
      · exact ⟨[], .root held row.top, row.placed.symm⟩
      · have next := held_iff.mpr under.held
        obtain ⟨above, further, length⟩ := ih upper under.less next
        refine ⟨holder :: above, .under held under.parent next further, ?_⟩
        rw [List.length_cons, length, under.level]

theorem exists_root {number : Nat} (within : number < grammar.linked.nodes.length) :
    ∃ root ∈ grammar.linked.roots, grammar.linked.Reaches root number := by
  induction number using Nat.strongRecOn with
  | ind number ih =>
      rcases root_or_under placed (List.getElem?_eq_getElem within) with
        row | ⟨upper, holder, under⟩
      · exact ⟨number, row.member, .refl⟩
      · have held := held_iff.mpr under.held
        obtain ⟨root, member, reaches⟩ := ih upper under.less (List.getElem?_eq_some_iff.mp held).1
        exact ⟨root, member, reaches.tail ⟨holder, held, under.listed⟩⟩

theorem rootOf_of_reaches {root number : Nat} (member : root ∈ grammar.linked.roots)
    (reaches : grammar.linked.Reaches root number) :
    grammar.linked.rootOf number = some root := by
  -- each link down that was taken is a link up
  induction reaches with
  | refl =>
      obtain ⟨node, held, same⟩ := (mem_roots_iff placed root).mp member
      rw [Linked.rootOf, held, Option.bind_eq_bind, Option.bind_some, same]
  | tail _ step ih =>
      have names := (lists_iff_names placed _ _).mp step
      have less := lt_of_names placed names
      obtain ⟨node, held, same⟩ := names
      rw [Linked.rootOf, held, Option.bind_eq_bind, Option.bind_some, same]
      exact (if_pos less).trans ih

theorem wellFormed_linked : grammar.linked.WellFormed where
  inverse := lists_iff_names placed
  earlier _ _ := lt_of_names placed
  once number within := by
    rw [length_linked] at within
    have count := count_numbers grammar none 0 number
    rw [linked, count]
    exact List.count_eq_one_of_mem List.nodup_range' (List.mem_range'_1.mpr (by omega))
  level _ _ := exists_above placed
  roots := mem_roots_iff placed
  marked _ _ := marked_iff placed
  reached number within := by
    obtain ⟨root, member, reaches⟩ := exists_root placed within
    refine ⟨root, ⟨member, reaches⟩, ?_⟩
    rintro other ⟨memberToo, reachesToo⟩
    have same := rootOf_of_reaches placed member reaches
    rw [rootOf_of_reaches placed memberToo reachesToo] at same
    exact Option.some.inj same
  rootOf _ member _ := rootOf_of_reaches placed member

end Placed

end Rollout.Grammar
