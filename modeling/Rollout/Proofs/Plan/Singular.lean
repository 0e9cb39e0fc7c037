import Mathlib.Data.List.Pairwise
import Mathlib.Data.List.Sort
import Rollout.Proofs.Plan.ForeignKeys

/-!
All items of a schema by one command on the class, and by one on each name of the schema. The two
come to the same steps, but what belongs to items follows the folders that are listed in the one,
and the files that are found in the other; names and paths are not in the same order.
-/

namespace Rollout

namespace Text

theorem append_left_lt_iff {first second : List Char} (start : List Char) :
    start ++ first < start ++ second ↔ first < second := by
  induction start with
  | nil => rfl
  | cons c rest ih => simp [ih]

/-- Texts that go on with a character that neither has stand in their own order, unless one begins
the other and the next character there is a lesser one. -/
theorem append_lt_iff {first second : List Char} {c : Char} (tail : List Char) (free : c ∉ second)
    (less : first < second) : first ++ c :: tail < second ++ c :: tail ↔
      ∀ d rest, second = first ++ d :: rest → c < d := by
  induction first generalizing second with
  | nil =>
      cases second with
      | nil => exact absurd less (lt_irrefl _)
      | cons d rest =>
          have apart : c ≠ d := fun same => free (same ▸ List.mem_cons_self)
          simp [List.cons_lt_cons_iff, apart]
  | cons e first ih =>
      cases second with
      | nil => exact absurd less (List.not_lt_nil _)
      | cons d rest =>
          rw [List.mem_cons, not_or] at free
          simp only [List.cons_append, List.cons_lt_cons_iff, List.cons.injEq] at less ⊢
          rcases less with smaller | ⟨rfl, less⟩
          · simp [smaller, smaller.ne']
          · simp [ih free.2 less]

end Text

namespace Plan

section Lists

variable {Value Result : Type} {make : Value → List Result}
  {first second : List Value}

theorem flatMap_filled (list : List Value) :
    (list.filter (make · ≠ [])).flatMap make = list.flatMap make := by
  induction list with
  | nil => rfl
  | cons value rest ih =>
      by_cases none : make value = []
      · rw [List.filter_cons_of_neg (by simp [none]), ih, List.flatMap_cons, none, List.nil_append]
      · rw [List.filter_cons_of_pos (by simp [none]), List.flatMap_cons, List.flatMap_cons, ih]

/-- Where no two values make the same, what is made tells the values that make anything. -/
theorem flatMap_eq_iff (tells : ∀ one ∈ first, ∀ two ∈ second, ∀ result ∈ make one,
      result ∈ make two → one = two) :
    first.flatMap make = second.flatMap make ↔
      first.filter (make · ≠ []) = second.filter (make · ≠ []) := by
  constructor
  · rw [← flatMap_filled first, ← flatMap_filled second]
    have filled (list : List Value) : ∀ value ∈ list.filter (make · ≠ []), make value ≠ [] :=
      fun value member => by simpa using (List.mem_filter.mp member).2
    have tells : ∀ one ∈ first.filter (make · ≠ []), ∀ two ∈ second.filter (make · ≠ []),
        ∀ result ∈ make one, result ∈ make two → one = two := fun one inside two among =>
      tells one (List.mem_of_mem_filter inside) two (List.mem_of_mem_filter among)
    have one := filled first
    have two := filled second
    generalize first.filter (make · ≠ []) = first at one tells
    generalize second.filter (make · ≠ []) = second at two tells
    intro same
    induction first generalizing second with
    | nil =>
        cases second with
        | nil => rfl
        | cons value rest =>
            rw [List.flatMap_nil, List.flatMap_cons] at same
            exact absurd (List.append_eq_nil_iff.mp same.symm).1 (two value List.mem_cons_self)
    | cons value rest ih =>
        obtain ⟨here, later⟩ := List.forall_mem_cons.mp one
        obtain ⟨result, more, made⟩ := List.exists_cons_of_ne_nil here
        cases second with
        | nil =>
            rw [List.flatMap_nil, List.flatMap_cons] at same
            exact absurd (List.append_eq_nil_iff.mp same).1 here
        | cons other others =>
            obtain ⟨there, after⟩ := List.forall_mem_cons.mp two
            obtain ⟨head, tail, also⟩ := List.exists_cons_of_ne_nil there
            -- what comes first tells the value that made it
            rw [List.flatMap_cons, List.flatMap_cons] at same
            have heads : result = head := by
              rw [made, also] at same
              exact (List.cons.inj same).1
            obtain rfl : value = other := tells value List.mem_cons_self other
              List.mem_cons_self result (by simp [made]) (by simp [also, heads])
            rw [ih later others after (fun one inside two among =>
              tells one (List.mem_cons_of_mem _ inside) two (List.mem_cons_of_mem _ among))
              (List.append_cancel_left same)]
  · intro same
    rw [← flatMap_filled first, same, flatMap_filled]

/-- Of two lists without repetition, each in an order of its own, the one is the other just if they
have the same members, and these have the one order where they have the other. -/
theorem eq_iff_of_ordered {above below : Value → Value → Prop}
    (one : first.Pairwise above) (two : second.Pairwise below)
    (strict : ∀ value other, above value other → ¬ above other value)
    (lasting : ∀ value other, below value other → ¬ below other value) :
    first = second ↔ (∀ value, value ∈ first ↔ value ∈ second) ∧
      ∀ value ∈ second, ∀ other ∈ second, above value other → below value other := by
  have distinct {list : List Value} {order : Value → Value → Prop} (sorted : list.Pairwise order)
      (strict : ∀ value other, order value other → ¬ order other value) : list.Nodup :=
    sorted.imp fun {value other} ordered same => by
      subst same
      exact strict value value ordered ordered
  constructor
  · rintro rfl
    have ahead : first.Pairwise fun value other => above value other → below value other := by
      refine two.imp ?_
      exact fun ordered _ => ordered
    have behind : first.Pairwise fun value other => above other value → below other value :=
      one.imp fun ordered reversed => absurd reversed (strict _ _ ordered)
    refine ⟨fun _ => .rfl, fun value inside other among => ?_⟩
    exact List.Pairwise.forall_of_forall_of_flip
      (fun value _ ordered => absurd ordered (strict _ _ ordered)) ahead behind inside among
  · rintro ⟨same, ordered⟩
    refine List.Perm.eq_of_pairwise (fun value other _ _ less more =>
      absurd more (lasting value other less)) ?_ two ?_
    · exact one.imp_of_mem fun inside among =>
        ordered _ ((same _).mp inside) _ ((same _).mp among)
    · exact (List.perm_ext_iff_of_nodup (distinct one strict) (distinct two lasting)).mpr same

end Lists

/-- What is read back from each of some values tells them. -/
theorem eq_map_of_read {read : String → Option (String × String)} {make : String → String}
    {schema : String} {list : List String}
    (each : ∀ path ∈ list, ∃ name, path = make name ∧ read path = some (schema, name)) :
    list = ((list.filterMap read).map (·.2)).map make := by
  induction list with
  | nil => rfl
  | cons path rest ih =>
      obtain ⟨⟨name, same, told⟩, later⟩ := List.forall_mem_cons.mp each
      rw [List.filterMap_cons_some told, List.map_cons, List.map_cons, ← same, ← ih later]

/-- What is found depends on what the last segment accepts. -/
theorem expand_glob {snapshot : Snapshot} {segments : List String} {file other : String}
    (free : '/' ∉ file.toList) (alsoFree : '/' ∉ other.toList)
    (same : Glob.ofSegment file = Glob.ofSegment other) :
    expand snapshot (Path.ofSegments (segments ++ [file])) =
      expand snapshot (Path.ofSegments (segments ++ [other])) := by
  unfold expand
  rw [splitFile_ofSegments free, splitFile_ofSegments alsoFree]
  simp only [same]

end Plan

namespace Planner

variable {planner : Planner} {kind : FileKind} {verb : Verb} {items : ItemClass}
  {schema item path : String}

/-- The steps for what belongs to the item of a file. -/
def attachedTo (planner : Planner) (items : ItemClass) (path : String) : List Step :=
  match Path.schemaItem? path with
  | some (schema, item) => planner.attached items schema item
  | none => []

/-- The steps for the items of one name, or of all names, in a schema. -/
def listedSteps (planner : Planner) (verb : Verb) (items : ItemClass) (schema item : String) :
    List Step :=
  let found := planner.found (items.planned verb) verb schema (some item)
  found.map planner.execs ++
    if verb = .create then found.flatMap (planner.attachedTo items) else []

/-- The items of the files that are found. -/
def foundItems (planner : Planner) (items : ItemClass) (schema item : String) : List String :=
  ((planner.found items.primary .create schema (some item)).filterMap Path.schemaItem?).map (·.2)

section Single

variable (tidy : planner.snapshot.Tidy) (orderly : planner.snapshot.Orderly)

include tidy orderly

/-- The wildcard for types finds the same as a question mark. -/
theorem found_any (has : kind ∈ items.kinds) (schemaFits : Literal schema) :
    planner.found kind verb schema (some items.anyItem) =
      planner.found kind verb schema (some Name.wildcard) := by
  rcases ItemClass.kinds_cases has with ⟨folders, -⟩ | ⟨rfl, types, none⟩
  · rw [items.anyItem_folders folders]
  · have asks : Asks .type (ItemClass.anyItem .type) := .anyItem
    have any : Seeks kind verb schema (some (ItemClass.anyItem .type)) _ _ :=
      seeks_type types schemaFits.sought asks.sought
    have each : Seeks kind verb schema (some Name.wildcard) _ _ :=
      seeks_type types schemaFits.sought .wildcard
    have globs : Glob.ofSegment (FileKind.scriptName (ItemClass.anyItem .type) (kind.verbFor verb)) =
        Glob.ofSegment (FileKind.scriptName Name.wildcard (kind.verbFor verb)) :=
      (ofSegment_wild (.inr rfl) _).trans (ofSegment_wild (.inl rfl) _).symm
    have same := (expand_found tidy orderly any).symm.trans
      ((Plan.expand_glob any.free each.free globs).trans (expand_found tidy orderly each))
    exact Except.ok.inj same

variable (literal : planner.snapshot.Literal)

include literal

/-- What belongs to the items of the files that are found is planned file by file. -/
theorem attachFound_makes {wanted asked : String} (sought : Sought wanted)
    (asks : Asks items asked) :
    (planner.attachFound items
        (planner.found items.primary .create wanted (some asked))).Makes ()
      ((planner.found items.primary .create wanted (some asked)).flatMap
        (planner.attachedTo items)) := by
  have seeks : Seeks items.primary .create wanted (some asked) _ _ :=
    seeks_spot items.primary_mem sought asks.sought
  refine .each fun path member => ?_
  obtain ⟨inside, name, rfl, insideFits, nameFits, plain, -⟩ := hits_asked tidy orderly literal asks
    ((mem_found_iff tidy orderly seeks).mp member)
  unfold attachedTo
  rw [FileKind.schemaItem_pathOf items.primary_mem insideFits.holdable.1 nameFits.holdable.1 plain]
  exact attach_makes tidy orderly insideFits nameFits

theorem planListedItems_makes {command : Command} {name : String}
    (only : command.itemNames = [name]) (split : Name.qualified? name = some (schema, item))
    (schemaPart : Name.IsPart schema) (itemPart : Name.IsPart item) :
    (planner.planListedItems command verb items).Makes ()
      (planner.listedSteps verb items schema item) := by
  have asks : Asks items item := .inl itemPart
  have sought := Sought.of_part schemaPart
  have seeks : Seeks (items.planned verb) verb schema (some item) _ _ :=
    seeks_spot (items.planned_mem verb) sought asks.sought
  unfold planListedItems listedSteps
  rw [only, Draft.each_single]
  simp only [Command.splitName, split, Draft.bind_eq, Draft.done_andThen]
  refine emitPlanned_makes tidy orderly seeks (fun _ => ?_) fun privileges => ?_
  · split <;> rename_i creating
    · subst creating
      exact attachFound_makes tidy orderly literal sought asks
    · exact .done ()
  · refine if_neg ?_
    rintro rfl
    cases privileges

/-- The path of each file that is found tells the item. -/
theorem found_read (asks : Asks items item) (schemaFits : Literal schema) :
    ∀ path ∈ planner.found items.primary .create schema (some item), ∃ name,
      path = items.primary.pathOf .create schema name ∧
        Path.schemaItem? path = some (schema, name) ∧ Literal name ∧ '.' ∉ name.toList := by
  intro path member
  have seeks : Seeks items.primary .create schema (some item) _ _ :=
    seeks_spot items.primary_mem schemaFits.sought asks.sought
  obtain ⟨inside, name, rfl, -, nameFits, plain, chosen⟩ := hits_asked tidy orderly literal asks
    ((mem_found_iff tidy orderly seeks).mp member)
  obtain rfl := (chosen_literal schemaFits.literal).mp chosen
  exact ⟨name, rfl, FileKind.schemaItem_pathOf items.primary_mem schemaFits.holdable.1
    nameFits.holdable.1 plain, nameFits, plain⟩

theorem found_eq_map (asks : Asks items item) (schemaFits : Literal schema) :
    planner.found items.primary .create schema (some item) =
      (planner.foundItems items schema item).map (items.primary.pathOf .create schema) := by
  have each : ∀ path ∈ planner.found items.primary .create schema (some item), ∃ name,
      path = items.primary.pathOf .create schema name ∧
        Path.schemaItem? path = some (schema, name) := by
    intro path member
    obtain ⟨name, same, read, -⟩ := found_read tidy orderly literal asks schemaFits path member
    exact ⟨name, same, read⟩
  exact Plan.eq_map_of_read each

theorem foundItems_literal (asks : Asks items item) (schemaFits : Literal schema) :
    ∀ name ∈ planner.foundItems items schema item, Literal name ∧ '.' ∉ name.toList := by
  intro name member
  obtain ⟨⟨inside, _⟩, among, rfl⟩ := List.mem_map.mp member
  obtain ⟨path, held, told⟩ := List.mem_filterMap.mp among
  obtain ⟨name, -, read, fits, plain⟩ :=
    found_read tidy orderly literal asks schemaFits path held
  cases read.symm.trans told
  exact ⟨fits, plain⟩

theorem flatMap_attachedTo (asks : Asks items item) (schemaFits : Literal schema) :
    (planner.found items.primary .create schema (some item)).flatMap (planner.attachedTo items) =
      (planner.foundItems items schema item).flatMap (planner.attached items schema) := by
  have fits := foundItems_literal tidy orderly literal asks schemaFits
  rw [found_eq_map tidy orderly literal asks schemaFits, List.flatMap_map]
  refine List.flatMap_congr fun name member => ?_
  unfold attachedTo
  rw [FileKind.schemaItem_pathOf items.primary_mem schemaFits.holdable.1
    (fits name member).1.holdable.1 (fits name member).2]

end Single

/-- Something belongs to the item, in a file that is listed as it is. -/
def Owns (snapshot : Snapshot) (items : ItemClass) (schema item : String) : Prop :=
  ∃ kind ∈ items.attachments,
    snapshot.IsFile ((kind.spot .create schema item).1 ++ [(kind.spot .create schema item).2]) ∧
      snapshot.Shows (kind.pathOf .create schema item)

/-- The items to which something belongs are in the same order by name and by path: no name goes on,
where another one ends, with a character before the slash. Names of two lines are not listed. -/
structure Aligned (snapshot : Snapshot) (items : ItemClass) (schema : String) : Prop where
  lines : ∀ item, Owns snapshot items schema item → '\n' ∉ item.toList
  order : ∀ first second c rest, Owns snapshot items schema first →
    Owns snapshot items schema second → second.toList = first.toList ++ c :: rest → '/' < c

/-- Every item that is a folder has a name without dots and holds the file that creates it. -/
def Complete (snapshot : Snapshot) (items : ItemClass) (schema : String) : Prop :=
  items ≠ .type → ∀ item, ⟨item, true⟩ ∈ snapshot.held ["schemas", schema, items.directory] →
    '.' ∉ item.toList ∧ snapshot.IsFile ((items.primary.spot .create schema item).1 ++
      [(items.primary.spot .create schema item).2])

section Owned

variable {step : Step} {one two : String}

variable (tidy : planner.snapshot.Tidy) (orderly : planner.snapshot.Orderly)
  (schemaFits : Literal schema)

include tidy orderly schemaFits

/-- The file of an item that is known by its name is found just if it is there. -/
theorem mem_found_literal (has : kind ∈ items.kinds) (itemFits : Literal item) :
    path ∈ planner.found kind verb schema (some item) ↔
      path = kind.pathOf verb schema item ∧
        planner.snapshot.IsFile ((kind.spot verb schema item).1 ++
          [(kind.spot verb schema item).2]) ∧
        planner.snapshot.Shows (kind.pathOf verb schema item) := by
  have seeks : Seeks kind verb schema (some item) _ _ :=
    seeks_spot has schemaFits.sought itemFits.sought
  rw [mem_found_iff tidy orderly seeks, hits_literal_iff has schemaFits itemFits]
  refine and_congr_right fun _ => ⟨fun stands => ⟨stands.isFile, stands.shows⟩, ?_⟩
  exact fun ⟨isFile, shows⟩ => .of_isFile tidy isFile shows

theorem attached_filled (itemFits : Literal item) :
    planner.attached items schema item ≠ [] ↔ Owns planner.snapshot items schema item := by
  unfold attached Owns
  rw [ne_eq, List.flatMap_eq_nil_iff]
  constructor
  · intro some
    by_contra none
    refine some fun kind belongs => List.map_eq_nil_iff.mpr ?_
    refine List.eq_nil_iff_forall_not_mem.mpr fun path member => none ⟨kind, belongs, ?_⟩
    exact ((mem_found_literal tidy orderly schemaFits (ItemClass.attachment_mem belongs)
      itemFits).mp member).2
  · rintro ⟨kind, belongs, there⟩ none
    have member := (mem_found_literal tidy orderly schemaFits (ItemClass.attachment_mem belongs)
      itemFits).mpr ⟨rfl, there⟩
    rw [List.map_eq_nil_iff.mp (none kind belongs)] at member
    cases member

theorem mem_attached (itemFits : Literal item)
    (member : step ∈ planner.attached items schema item) : ∃ kind ∈ items.attachments,
      step = planner.execs (kind.pathOf .create schema item) := by
  obtain ⟨kind, belongs, among⟩ := List.mem_flatMap.mp member
  obtain ⟨path, within, rfl⟩ := List.mem_map.mp among
  refine ⟨kind, belongs, ?_⟩
  rw [((mem_found_literal tidy orderly schemaFits (ItemClass.attachment_mem belongs)
    itemFits).mp within).1]

/-- A step for what belongs to an item tells the item. -/
theorem attached_tells (oneFits : Literal one) (twoFits : Literal two)
    (member : step ∈ planner.attached items schema one)
    (also : step ∈ planner.attached items schema two) : one = two := by
  obtain ⟨kind, belongs, rfl⟩ := mem_attached tidy orderly schemaFits oneFits member
  obtain ⟨other, among, same⟩ := mem_attached tidy orderly schemaFits twoFits also
  have alike : items = .type → kind = other := by
    rintro rfl
    rw [List.mem_singleton.mp belongs, List.mem_singleton.mp among]
  exact (FileKind.pathOf_inj schemaFits.holdable.1 oneFits.holdable.1 schemaFits.holdable.1
    twoFits.holdable.1 (ItemClass.attachment_mem belongs) (ItemClass.attachment_mem among) alike
    (execs_inj same)).2

end Owned

section Folders

variable (tidy : planner.snapshot.Tidy) (orderly : planner.snapshot.Orderly)
  (schemaFits : Literal schema) (folders : items ≠ .type)

include folders

/-- What belongs to an item stands in its folder. -/
theorem Owns.held {snapshot : Snapshot} (owns : Owns snapshot items schema item) :
    ⟨item, true⟩ ∈ snapshot.held ["schemas", schema, items.directory] ∧
      snapshot.Shows (Path.ofSegments ["schemas", schema, items.directory, item]) := by
  obtain ⟨kind, belongs, ⟨content, led⟩, shows⟩ := owns
  obtain ⟨file, placed⟩ := items.placed folders kind (ItemClass.attachment_mem belongs)
  unfold FileKind.pathOf at shows
  rw [FileKind.spot_placed placed] at led shows
  obtain ⟨folder, reached⟩ := Snapshot.reach_folder (List.cons_ne_nil _ _) led
  have inside : snapshot.reach (["schemas", schema, items.directory] ++ [item]) =
      .node (.folder folder) := reached
  exact ⟨Snapshot.held_of_reach inside, shows.start (List.cons_ne_nil _ _)⟩

omit folders in
theorem pathOf_letters {file : String} (placed : kind.place? = some (items.directory, file)) :
    (kind.pathOf verb schema item).toList =
      ("schemas/" ++ schema ++ "/" ++ items.directory ++ "/").toList ++
        (item.toList ++ '/' :: (FileKind.scriptName file (kind.verbFor verb)).toList) := by
  rw [FileKind.pathOf, FileKind.spot_placed placed]
  simp [Path.ofSegments]

/-- The paths of two items stand in the order of their names, unless one name begins the other and
goes on with a character before the slash. -/
theorem pathOf_lt_iff {first second : String} (secondFits : Literal second)
    (less : first < second) :
    items.primary.pathOf verb schema first < items.primary.pathOf verb schema second ↔
      ∀ c rest, second.toList = first.toList ++ c :: rest → '/' < c := by
  obtain ⟨file, placed⟩ := items.placed folders _ items.primary_mem
  have letters : first.toList < second.toList := less
  rw [String.lt_iff_toList_lt, pathOf_letters placed, pathOf_letters placed,
    Text.append_left_lt_iff, Text.append_lt_iff _ secondFits.holdable.1.free letters]

include tidy orderly schemaFits

/-- Items that are folders are listed in ascending order, if their names are of one line. -/
theorem owners_spec : (planner.owners items schema).Pairwise (· < ·) ∧
    (∀ item ∈ planner.owners items schema, Literal item) ∧ ∀ item,
      planner.snapshot.Shows (Path.ofSegments ["schemas", schema, items.directory, item]) →
        (item ∈ planner.owners items schema ↔
          ⟨item, true⟩ ∈ planner.snapshot.held ["schemas", schema, items.directory] ∧
            Glob.anyName item = true) := by
  have holdable := directory_holdable schemaFits items
  obtain ⟨names, listed, -, fits, among⟩ :=
    folderNames_spec tidy orderly (Plan.Within.of_names holdable)
  have same : planner.owners items schema = names := by
    unfold owners
    rw [itemsOf_folders folders, listed]
    rfl
  have proper : ∀ name ∈ ["schemas", schema, items.directory], Path.IsName name :=
    fun name member => (holdable name member).1
  rw [(Plan.Written.of_names proper).steps proper] at among
  rw [same]
  exact ⟨folderNames_ascend tidy listed, fits, among⟩

variable (literal : planner.snapshot.Literal)

include literal

/-- With a complete schema, what belongs to items belongs to such as are found. -/
theorem mem_foundItems_of_owns (complete : Complete planner.snapshot items schema)
    (owns : Owns planner.snapshot items schema item) :
    item ∈ planner.foundItems items schema Name.wildcard := by
  obtain ⟨held, -⟩ := owns.held folders
  obtain ⟨kind, belongs, -, shows⟩ := owns
  obtain ⟨plain, isFile⟩ := complete folders item held
  have itemFits : Literal item := ⟨tidy.held held, orderly.held held⟩
  have asks : Asks items Name.wildcard := .inl (.inl rfl)
  have seeks : Seeks items.primary .create schema (some Name.wildcard) _ _ :=
    seeks_spot items.primary_mem schemaFits.sought asks.sought
  have hasFile := (Snapshot.hasFile_iff (FileKind.spot_names items.primary_mem
    schemaFits.holdable.1 itemFits.holdable.1)).mpr isFile
  have planned :=
    primary_found tidy orderly folders schemaFits itemFits belongs plain hasFile shows
  rw [items.anyItem_folders folders, mem_emitFound_iff tidy orderly seeks,
    ← mem_found_iff tidy orderly seeks, found_eq_map tidy orderly literal asks schemaFits] at planned
  obtain ⟨name, member, same⟩ := List.mem_map.mp planned
  have nameFits := (foundItems_literal tidy orderly literal asks schemaFits name member).1
  obtain ⟨-, rfl⟩ := FileKind.pathOf_inj schemaFits.holdable.1 nameFits.holdable.1
    schemaFits.holdable.1 itemFits.holdable.1 items.primary_mem items.primary_mem (fun _ => rfl)
    same
  exact member

/-- What belongs to the folders that are listed is what belongs to the files that are found, in the
same order, just if the items are aligned. -/
theorem flatMap_attached_iff (complete : Complete planner.snapshot items schema) :
    (planner.owners items schema).flatMap (planner.attached items schema) =
        (planner.foundItems items schema Name.wildcard).flatMap (planner.attached items schema) ↔
      Aligned planner.snapshot items schema := by
  obtain ⟨ascends, fits, among⟩ := owners_spec tidy orderly schemaFits folders
  have asks : Asks items Name.wildcard := .inl (.inl rfl)
  have seeks : Seeks items.primary .create schema (some Name.wildcard) _ _ :=
    seeks_spot items.primary_mem schemaFits.sought asks.sought
  have found := foundItems_literal tidy orderly literal asks schemaFits
  have paths := found_ascends tidy orderly seeks
  rw [found_eq_map tidy orderly literal asks schemaFits, List.pairwise_map] at paths
  have owner (item : String) : item ∈ (planner.owners items schema).filter
      (planner.attached items schema · ≠ []) ↔
        Owns planner.snapshot items schema item ∧ '\n' ∉ item.toList := by
    rw [List.mem_filter, decide_eq_true_iff]
    constructor
    · rintro ⟨member, filled⟩
      have owns := (attached_filled tidy orderly schemaFits (fits item member)).mp filled
      obtain ⟨-, line⟩ := (among item (owns.held folders).2).mp member
      exact ⟨owns, by simpa [Glob.anyName] using line⟩
    · rintro ⟨owns, line⟩
      obtain ⟨held, shows⟩ := owns.held folders
      have member := (among item shows).mpr ⟨held, by simpa [Glob.anyName] using line⟩
      exact ⟨member, (attached_filled tidy orderly schemaFits (fits item member)).mpr owns⟩
  have finder (item : String) : item ∈ (planner.foundItems items schema Name.wildcard).filter
      (planner.attached items schema · ≠ []) ↔ Owns planner.snapshot items schema item := by
    rw [List.mem_filter, decide_eq_true_iff]
    constructor
    · rintro ⟨member, filled⟩
      exact (attached_filled tidy orderly schemaFits (found item member).1).mp filled
    · intro owns
      have member :=
        mem_foundItems_of_owns tidy orderly schemaFits folders literal complete owns
      exact ⟨member, (attached_filled tidy orderly schemaFits (found item member).1).mpr owns⟩
  have ownerFits {item : String} (owns : Owns planner.snapshot items schema item) : Literal item :=
    (found item (List.mem_of_mem_filter ((finder item).mpr owns))).1
  -- the listed owners and the found ones are the same list, in two orders
  rw [Plan.flatMap_eq_iff fun one inside two member step => attached_tells tidy orderly schemaFits
    (fits one inside) (found two member).1,
    Plan.eq_iff_of_ordered (ascends.filter _) (paths.filter _) (fun _ _ => lt_asymm)
      (fun _ _ => lt_asymm)]
  simp only [owner, finder]
  constructor
  · rintro ⟨same, ordered⟩
    refine ⟨fun item owns => ((same item).mpr owns).2, fun first second c rest one two whole => ?_⟩
    have less : first < second := by
      have begins : first.toList ++ [] < first.toList ++ c :: rest :=
        (Text.append_left_lt_iff _).mpr List.Lex.nil
      rwa [List.append_nil, ← whole] at begins
    exact (pathOf_lt_iff folders (ownerFits two) less).mp (ordered first one second two less) c
      rest whole
  · rintro ⟨line, ordered⟩
    refine ⟨fun item => and_iff_left_of_imp (line item), fun first one second two less => ?_⟩
    exact (pathOf_lt_iff folders (ownerFits two) less).mpr fun c rest =>
      ordered first second c rest one two

end Folders

section Whole

variable (tidy : planner.snapshot.Tidy) (orderly : planner.snapshot.Orderly)
  (schemaFits : Literal schema)

include tidy orderly schemaFits

theorem owners_types :
    planner.owners .type schema = planner.foundItems .type schema Name.wildcard := by
  unfold owners itemsOf foundItems
  rw [found_any tidy orderly (ItemClass.primary_mem .type) schemaFits]
  rfl

variable (literal : planner.snapshot.Literal)
  (complete : Complete planner.snapshot items schema)

include literal complete

/-- Nothing belongs to items where no item is found. -/
theorem attached_of_none
    (none : planner.found items.primary .create schema (some Name.wildcard) = []) :
    (planner.owners items schema).flatMap (planner.attached items schema) = [] := by
  have empty : planner.foundItems items schema Name.wildcard = [] := by
    unfold foundItems
    rw [none]
    rfl
  by_cases types : items = .type
  · subst types
    rw [owners_types tidy orderly schemaFits, empty]
    rfl
  · obtain ⟨-, fits, -⟩ := owners_spec tidy orderly schemaFits types
    refine List.flatMap_eq_nil_iff.mpr fun item member => ?_
    by_contra filled
    have owns := (attached_filled tidy orderly schemaFits (fits item member)).mp filled
    have found := mem_foundItems_of_owns tidy orderly schemaFits types literal complete owns
    rw [empty] at found
    cases found

/-- All items of a schema and those of one name come to the same steps, but for the order in which
what belongs to folders is planned. -/
theorem itemSteps_eq_iff :
    planner.itemSteps verb items schema = planner.listedSteps verb items schema Name.wildcard ↔
      (verb = .create → items ≠ .type → Aligned planner.snapshot items schema) := by
  have asks : Asks items Name.wildcard := .inl (.inl rfl)
  have planned : items.planned .create = items.primary := rfl
  unfold itemSteps listedSteps
  rw [found_any tidy orderly (items.planned_mem verb) schemaFits]
  dsimp only
  rw [List.append_right_inj]
  by_cases creating : verb = .create
  · subst creating
    rw [planned]
    have all : (if Verb.create = .create ∧
          planner.found items.primary .create schema (some Name.wildcard) ≠ [] then
        (planner.owners items schema).flatMap (planner.attached items schema) else []) =
        (planner.owners items schema).flatMap (planner.attached items schema) := by
      split
      · rfl
      · rename_i none
        exact (attached_of_none tidy orderly schemaFits literal complete (by simpa using none)).symm
    rw [all, if_pos rfl, flatMap_attachedTo tidy orderly literal asks schemaFits]
    by_cases types : items = .type
    · subst types
      simp [owners_types tidy orderly schemaFits]
    · rw [flatMap_attached_iff tidy orderly schemaFits types literal complete]
      exact ⟨fun agree _ _ => agree, fun agree => agree rfl types⟩
  · simp [creating]

end Whole

section Commands

/-- The characters of names are shown as they are. -/
theorem isPlain_of_identifier {c : Char} (letter : Name.isIdentifierRest c = true) :
    Source.Listed.isPlain c = true := by
  have quote : c ≠ '"' := by
    rintro rfl
    exact absurd letter (by decide)
  have backslash : c ≠ '\\' := by
    rintro rfl
    exact absurd letter (by decide)
  have bounds : 0x20 ≤ c.toNat ∧ c.toNat < 0x7F := by
    unfold Name.isIdentifierRest Name.isIdentifierStart Char.isAlphanum Char.isAlpha Char.isUpper
      Char.isLower Char.isDigit at letter
    simp only [Bool.or_eq_true, Bool.and_eq_true, decide_eq_true_eq, beq_iff_eq,
      UInt32.le_iff_toNat_le] at letter
    have same : c.toNat = c.val.toNat := rfl
    rcases letter with ((((⟨low, high⟩ | ⟨low, high⟩) | ⟨low, high⟩) | rfl) | rfl) | rfl
    all_goals first | decide | (constructor <;> simp at low high <;> omega)
  simp [Source.Listed.isPlain, quote, backslash, bounds]

/-- A schema with a name that can be written down is listed under it. -/
theorem shows_of_identifier {snapshot : Snapshot} (identifier : Name.isIdentifier schema = true) :
    snapshot.Shows (Path.ofSegments ["schemas", schema]) := by
  intro _
  have letters : (Path.ofSegments ["schemas", schema]).toList =
      "schemas/".toList ++ schema.toList := by
    simp [Path.ofSegments]
  unfold Source.Listed.isShown
  rw [letters, List.all_append, Bool.and_eq_true]
  refine ⟨by decide, List.all_eq_true.mpr fun c member => ?_⟩
  exact isPlain_of_identifier ((Name.isIdentifier_letters identifier).2 c member)

theorem filterSchemas_single {command : Command} {schemas : List String}
    (within : command.clause = some .within) (only : command.schemaNames = [schema])
    (distinct : schemas.Nodup) (member : schema ∈ schemas) :
    command.filterSchemas schemas = [schema] := by
  have among : command.keeps = (· == schema) := by
    funext other
    rw [Bool.eq_iff_iff]
    simp [Command.keeps, within, only]
  rw [Command.filterSchemas_eq, among, List.filter_beq,
    List.count_eq_one_of_mem distinct member]
  rfl

/-- Without foreign keys, what is left are the steps for the items. -/
theorem allSteps_filter (tidy : planner.snapshot.Tidy) (orderly : planner.snapshot.Orderly)
    (literal : planner.snapshot.Literal) (schemaFits : Literal schema) :
    (planner.allSteps verb items [schema]).filter (!·.isForeignKeys verb) =
      planner.itemSteps verb items schema := by
  have keys : (planner.keySteps verb [schema]).filter (!·.isForeignKeys verb) = [] := by
    refine List.filter_eq_nil_iff.mpr fun step member => ?_
    simp [keySteps_isForeignKeys tidy orderly (List.forall_mem_singleton.mpr schemaFits) member]
  have others : (planner.itemSteps verb items schema).filter (!·.isForeignKeys verb) =
      planner.itemSteps verb items schema := by
    refine List.filter_eq_self.mpr fun step member => ?_
    simp [itemSteps_apart tidy orderly (fun _ => literal) schemaFits member]
  unfold allSteps
  rw [List.filter_append, List.filter_append, List.flatMap_singleton, others]
  split <;> split <;> simp [keys]

section Single

variable {plural singular : Command} {objects object : String} {State : Type}

variable (tidy : planner.snapshot.Tidy) (orderly : planner.snapshot.Orderly)
  (literal : planner.snapshot.Literal) (identifier : Name.isIdentifier schema = true)

include tidy orderly literal identifier

theorem plan_plural_emits (root : plural.root = verb.name) (named : plural.object = some objects)
    (known : ItemClass.ofObject? objects = some (items, true))
    (within : plural.clause = some .within) (only : plural.schemaNames = [schema])
    (there : ⟨schema, true⟩ ∈ planner.snapshot.held ["schemas"])
    (database : Option (Database State)) (state : State) :
    Plan.Emits plural ((planner.plan plural).settle database state).1
      (planner.allSteps verb items [schema]) := by
  obtain ⟨schemas, listed, distinct, fits, among⟩ := schemas_spec tidy orderly
  have member : schema ∈ schemas := by
    refine (among schema (shows_of_identifier identifier)).mpr ⟨there, ?_⟩
    have line : '\n' ∉ schema.toList := Name.not_mem_isIdentifier identifier (by decide)
    simp [Glob.anyName, line]
  have emits := plan_allItems_emits tidy orderly (fun _ => literal) root named known listed fits
    database state
  rwa [filterSchemas_single within only distinct member] at emits

theorem plan_singular_emits (root : singular.root = verb.name)
    (named : singular.object = some object)
    (known : ItemClass.ofObject? object = some (items, false))
    (listed : singular.itemNames = [schema ++ ".?"]) (database : Option (Database State))
    (state : State) :
    Plan.Emits singular ((planner.plan singular).settle database state).1
      (planner.listedSteps verb items schema Name.wildcard) := by
  have split : Name.qualified? (schema ++ ".?") = some (schema, Name.wildcard) := by
    have whole : schema ++ ".?" = schema ++ String.singleton '.' ++ Name.wildcard := by
      apply String.ext
      simp [Name.wildcard]
    have parts : Text.splitAt '.' (schema ++ ".?") = [schema, Name.wildcard] := by
      rw [whole, Text.splitAt_append,
        Text.splitAt_of_free (Name.not_mem_isIdentifier identifier (by decide))]
      rfl
    simp [Name.qualified?, parts, (Name.isIdentifier_letters identifier).1, Name.wildcard]
  refine plan_emits root ?_ database state
  rw [planObjects_items named known, if_neg Bool.false_ne_true]
  exact planListedItems_makes tidy orderly literal listed split (.inr identifier) (.inl rfl)

end Single

/-- A command on all items of a class in one schema, and one on the items of the schema by a
question mark, emit the same steps but for foreign keys; when items that are folders are created,
just if they are aligned. -/
theorem plan_singular_iff (tidy : planner.snapshot.Tidy) (orderly : planner.snapshot.Orderly)
    (literal : planner.snapshot.Literal) {plural singular : Command}
    (root : plural.root = verb.name) (also : singular.root = verb.name) {objects object : String}
    (named : plural.object = some objects)
    (known : ItemClass.ofObject? objects = some (items, true))
    (alsoNamed : singular.object = some object)
    (alsoKnown : ItemClass.ofObject? object = some (items, false))
    (within : plural.clause = some .within) (only : plural.schemaNames = [schema])
    (listed : singular.itemNames = [schema ++ ".?"])
    (identifier : Name.isIdentifier schema = true)
    (there : ⟨schema, true⟩ ∈ planner.snapshot.held ["schemas"])
    (complete : Complete planner.snapshot items schema) {State : Type}
    (database : Option (Database State)) (state : State) :
    ∃ all each : List Step,
      Plan.Emits plural ((planner.plan plural).settle database state).1 all ∧
        Plan.Emits singular ((planner.plan singular).settle database state).1 each ∧
        (all.filter (!·.isForeignKeys verb) = each ↔
          (verb = .create → items ≠ .type → Aligned planner.snapshot items schema)) := by
  have schemaFits : Literal schema :=
    ⟨tidy.held there, Path.not_isWildcard_of_isIdentifier identifier⟩
  refine ⟨planner.allSteps verb items [schema],
    planner.listedSteps verb items schema Name.wildcard,
    plan_plural_emits tidy orderly literal identifier root named known within only there database
      state,
    plan_singular_emits tidy orderly literal identifier also alsoNamed alsoKnown listed database
      state, ?_⟩
  rw [allSteps_filter tidy orderly literal schemaFits,
    itemSteps_eq_iff tidy orderly schemaFits literal complete]

end Commands

/-- Two tables with constraints. -/
def pair (first second : String) : Planner where
  grammar := Grammar.builtin
  snapshot := .disk ⟨".", .node (.folder (.folder "schemas" (.folder "app" (.folder "tables"
    (.folder first (.file "constraints.create.sql" (.text "select 2")
        (.file "table.create.sql" (.text "select 1") .nil))
      (.folder second (.file "constraints.create.sql" (.text "select 4")
        (.file "table.create.sql" (.text "select 3") .nil)) .nil))
    .nil) .nil) .nil))⟩
  ref := none
  autoTransaction := true

def createTablesInApp : Command :=
  ⟨"create", ["create", "tables", "in"], some "tables", some .within,
    [⟨"schema-names", .list ["app"]⟩], none, "create tables in app", 1⟩

def createEachTable : Command :=
  ⟨"create", ["create", "table"], some "table", none, [⟨"item-names", .list ["app.?"]⟩], none,
    "create table app.?", 1⟩

theorem pair_complete {first second : String} (one : '.' ∉ first.toList) (two : '.' ∉ second.toList)
    (held : (pair first second).snapshot.held ["schemas", "app", "tables"] =
      [⟨first, true⟩, ⟨second, true⟩])
    (here : (pair first second).snapshot.IsFile
      ["schemas", "app", "tables", first, "table.create.sql"])
    (there : (pair first second).snapshot.IsFile
      ["schemas", "app", "tables", second, "table.create.sql"]) :
    Complete (pair first second).snapshot .table "app" := by
  intro _ item member
  have among : (⟨item, true⟩ : Entry) ∈ [⟨first, true⟩, ⟨second, true⟩] := by
    rw [← held]
    exact member
  simp only [List.mem_cons, Entry.mk.injEq, List.not_mem_nil, or_false, and_true] at among
  rcases among with rfl | rfl
  · exact ⟨one, here⟩
  · exact ⟨two, there⟩

theorem pair_aligned : Aligned (pair "a" "b").snapshot .table "app" := by
  have held : (pair "a" "b").snapshot.held ["schemas", "app", "tables"] =
      [⟨"a", true⟩, ⟨"b", true⟩] := by
    decide +kernel
  have among {item : String} (owns : Owns (pair "a" "b").snapshot .table "app" item) :
      item = "a" ∨ item = "b" := by
    have member : (⟨item, true⟩ : Entry) ∈ [⟨"a", true⟩, ⟨"b", true⟩] := by
      rw [← held]
      exact (owns.held (by decide)).1
    simpa using member
  refine ⟨fun item owns => ?_, fun first second c rest one two whole => ?_⟩
  · rcases among owns with rfl | rfl <;> decide
  · rcases among one with rfl | rfl <;> rcases among two with rfl | rfl <;> simp at whole

theorem plan_singular_iff_pair :
    Command.parse Grammar.builtin "create tables in app" = .ok [createTablesInApp] ∧
      Command.parse Grammar.builtin "create table app.?" = .ok [createEachTable] ∧
      ∃ all each : List Step,
        Plan.Emits createTablesInApp
            (((pair "a" "b").plan createTablesInApp).settle (none : Option (Database Unit)) ()).1
            all ∧
          Plan.Emits createEachTable
            (((pair "a" "b").plan createEachTable).settle (none : Option (Database Unit)) ()).1
            each ∧
          all.filter (!·.isForeignKeys .create) = each := by
  have tidy : (pair "a" "b").snapshot.Tidy := by
    rintro folder ⟨⟩
    decide
  have orderly : (pair "a" "b").snapshot.Orderly := by
    rintro folder ⟨⟩
    decide
  have literal : (pair "a" "b").snapshot.Literal := by
    rintro folder ⟨⟩
    decide
  have root : createTablesInApp.root = Verb.create.name := rfl
  have alsoRoot : createEachTable.root = Verb.create.name := rfl
  have complete : Complete (pair "a" "b").snapshot .table "app" :=
    pair_complete (by decide) (by decide) (by decide +kernel)
      ⟨.text "select 1", by decide +kernel⟩ ⟨.text "select 3", by decide +kernel⟩
  have tables : ItemClass.ofObject? "tables" = some (.table, true) := rfl
  have table : ItemClass.ofObject? "table" = some (.table, false) := rfl
  obtain ⟨all, each, emits, also, iff⟩ := plan_singular_iff tidy orderly literal root alsoRoot rfl
    tables rfl table rfl rfl rfl (by decide) (by decide +kernel) complete
    (none : Option (Database Unit)) ()
  exact ⟨by decide +kernel, by decide +kernel, all, each, emits, also,
    iff.mpr fun _ _ => pair_aligned⟩

/-- The name of the one table begins that of the other and goes on with a hyphen, so the constraints
come in two orders. -/
theorem plan_singular_prefix :
    Command.parse Grammar.builtin "create tables in app" = .ok [createTablesInApp] ∧
      Command.parse Grammar.builtin "create table app.?" = .ok [createEachTable] ∧
      (pair "a" "a-b").snapshot.Tidy ∧ (pair "a" "a-b").snapshot.Orderly ∧
      (pair "a" "a-b").snapshot.Literal ∧ Complete (pair "a" "a-b").snapshot .table "app" ∧
      ∃ all each : List Step,
        Plan.Emits createTablesInApp
            (((pair "a" "a-b").plan createTablesInApp).settle (none : Option (Database Unit)) ()).1
            all ∧
          Plan.Emits createEachTable
            (((pair "a" "a-b").plan createEachTable).settle (none : Option (Database Unit)) ()).1
            each ∧
          all.filter (!·.isForeignKeys .create) ≠ each := by
  have tidy : (pair "a" "a-b").snapshot.Tidy := by
    rintro folder ⟨⟩
    decide
  have orderly : (pair "a" "a-b").snapshot.Orderly := by
    rintro folder ⟨⟩
    decide
  have literal : (pair "a" "a-b").snapshot.Literal := by
    rintro folder ⟨⟩
    decide
  have schemaFits : Literal "app" := ⟨by decide, by decide⟩
  have identifier : Name.isIdentifier "app" = true := by decide
  have root : createTablesInApp.root = Verb.create.name := rfl
  have alsoRoot : createEachTable.root = Verb.create.name := rfl
  have tables : ItemClass.ofObject? "tables" = some (.table, true) := rfl
  have table : ItemClass.ofObject? "table" = some (.table, false) := rfl
  have complete : Complete (pair "a" "a-b").snapshot .table "app" :=
    pair_complete (by decide) (by decide) (by decide +kernel)
      ⟨.text "select 1", by decide +kernel⟩ ⟨.text "select 3", by decide +kernel⟩
  have first : Owns (pair "a" "a-b").snapshot .table "app" "a" :=
    ⟨.constraints, by decide, ⟨.text "select 2", by decide +kernel⟩, nofun⟩
  have second : Owns (pair "a" "a-b").snapshot .table "app" "a-b" :=
    ⟨.constraints, by decide, ⟨.text "select 4", by decide +kernel⟩, nofun⟩
  refine ⟨by decide +kernel, by decide +kernel, tidy, orderly, literal, complete, _, _,
    plan_plural_emits tidy orderly literal identifier root rfl tables rfl rfl
      (by decide +kernel) none (),
    plan_singular_emits tidy orderly literal identifier alsoRoot rfl table rfl none (), ?_⟩
  rw [allSteps_filter tidy orderly literal schemaFits, ne_eq,
    itemSteps_eq_iff tidy orderly schemaFits literal complete]
  intro agree
  have less := (agree rfl (by decide)).order "a" "a-b" '-' ['b'] first second (by decide)
  exact absurd less (by decide)

end Planner

end Rollout
