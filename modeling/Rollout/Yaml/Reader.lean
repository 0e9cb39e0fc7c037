import Rollout.Yaml.Scalar

/-!
Reading documents. A key in a block is recognised by the colon behind it, on the line where it
begins. The depth of a text is at most its length, which bounds every recursion here.
-/

namespace Rollout.Yaml

structure Reading where
  cursor : Cursor
  /-- Nodes that have been given names. -/
  anchors : List (String × Node) := []

/-- Reads something, unless the text is no YAML. -/
abbrev Reader := StateT Reading Option

namespace Reader

def look : Reader Cursor := do return (← get).cursor

def goTo (cursor : Cursor) : Reader Unit := modify fun reading => { reading with cursor }

def move (count : Nat) : Reader Unit := do goTo ((← look).move count)

/-- Passes over white space; tells whether a line has ended. -/
def skip (inFlow tabs : Bool) : Reader Bool := do
  let before ← look
  let after := before.skip inFlow tabs
  goTo after
  return before.line != after.line

def require (condition : Bool) : Reader Unit := if condition then pure () else failure

/-- Gives a node a name, if it has got one. -/
def record (anchor : Option String) (node : Node) : Reader Node :=
  match anchor with
  | none => return node
  | some name => do
      modify fun reading => { reading with anchors := (name, node) :: reading.anchors }
      return node

def isNameChar (c : Char) : Bool := c.isAlphanum || c == '_' || c == '-'

def anchorName : Reader String := do
  let rest := (← look).rest.drop 1
  let name := rest.takeWhile isNameChar
  let behind := rest.drop name.length
  require (!name.isEmpty)
  require (startsBlank behind || behind.head?.any "?:,]\x7d%@\x60".toList.contains)
  move (name.length + 1)
  return String.ofList name

/-- A tag; the short forms stand for long ones. -/
def tag (inFlow : Bool) : Reader String := do
  let ends (c : Char) : Bool := startsBlank [c] || (inFlow && ",[]\x7b\x7d".toList.contains c)
  let written := (← look).rest.takeWhile fun c => !ends c
  move written.length
  match written with
  | '!' :: '<' :: rest =>
      require (rest.getLast? == some '>' && 1 < rest.length)
      return String.ofList rest.dropLast
  | '!' :: '!' :: rest =>
      require (!rest.isEmpty)
      return "tag:yaml.org,2002:" ++ String.ofList rest
  | _ => return String.ofList written

structure Properties where
  anchor : Option String := none
  tag : Option String := none
  /-- Has anything been said? -/
  isGiven : Bool := false
  /-- Has a line ended since? -/
  isBroken : Bool := false

/-- The name and the tag of a node, in either order. -/
def properties (inFlow : Bool) : Reader Properties := do
  let first ← one {}
  if first.isGiven && !first.isBroken then one first else return first
where
  one (found : Properties) : Reader Properties := do
    match (← look).rest.head? with
    | some '&' =>
        require found.anchor.isNone
        let name ← anchorName
        return { found with anchor := some name, isGiven := true, isBroken := ← skip inFlow true }
    | some '!' =>
        require found.tag.isNone
        let tag ← tag inFlow
        return { found with tag := some tag, isGiven := true, isBroken := ← skip inFlow true }
    | _ => return found

/-- A scalar that is plain or in quotes, or the node that a name stands for. -/
def atom (inFlow : Bool) (indent : Int) : Reader Node := do
  let cursor ← look
  let behind := cursor.rest.drop 1
  let finish (isPlain : Bool) (found : Option (List Char × Cursor)) : Reader Node := do
    let (text, after) ← (found : Option (List Char × Cursor))
    goTo after
    return .scalar isPlain none (String.ofList text)
  match cursor.rest.head? with
  | some '*' =>
      let name ← anchorName
      let node ← ((← get).anchors.lookup name : Option Node)
      return node
  | some '\'' => finish false (singleFrom {} [] cursor.line (cursor.column + 1) behind)
  | some '"' => finish false (doubleFrom {} [] cursor.line (cursor.column + 1) behind)
  | _ =>
      require (startsPlain inFlow cursor.rest)
      finish true (plainFrom inFlow indent {} [] cursor.line cursor.column cursor.rest)

/-- Does the text go on with one of the characters? -/
def isNext (characters : String) : Reader Bool := do
  return (← look).rest.head?.any characters.toList.contains

/-! Between brackets. -/

mutual

def flowNode (indent : Int) : Nat → Reader Node
  | 0 => failure
  | depth + 1 => do
      let said ← properties true
      if said.isGiven && (← isNext ",]\x7d:") then
        record said.anchor (Node.empty.tagged said.tag)
      else
        let node ← flowBody indent depth
        record said.anchor (node.tagged said.tag)

def flowBody (indent : Int) : Nat → Reader Node
  | 0 => failure
  | depth + 1 => do
      require (!(← look).isAtEnd)
      if ← isNext "[" then
        move 1
        discard (skip true true)
        return .list (← flowItems indent depth)
      else if ← isNext "\x7b" then
        move 1
        discard (skip true true)
        return .record (← flowEntries indent depth)
      else atom true indent

/-- What stands behind a colon, perhaps nothing. -/
def flowValue (indent : Int) : Nat → Reader Node
  | 0 => failure
  | depth + 1 => do
      move 1
      discard (skip true true)
      if ← isNext ",]\x7d" then return Node.empty else flowNode indent depth

/-- A key and its value. The colon stands on the line where the key begins, unless a question
mark stands before the key. -/
def flowEntry (indent : Int) : Nat → Reader (Node × Option Node)
  | 0 => failure
  | depth + 1 => do
      let start ← look
      if isIndicator '?' start.rest then
        move 1
        discard (skip true true)
        let key ← if ← isNext ":,]\x7d" then pure Node.empty else flowNode indent depth
        discard (skip true true)
        if ← isNext ":" then return (key, some (← flowValue indent depth))
        else return (key, some Node.empty)
      else
        let key ← flowNode indent depth
        discard (skip true true)
        if ← isNext ":" then
          require ((← look).line == start.line)
          return (key, some (← flowValue indent depth))
        else return (key, none)

def flowItems (indent : Int) : Nat → Reader (List Node)
  | 0 => failure
  | depth + 1 => do
      if ← isNext "]" then
        move 1
        return []
      else
        let item ← match ← flowEntry indent depth with
          | (node, none) => pure node
          | (key, some value) => pure (.record [(key, value)])
        discard (skip true true)
        if ← isNext "," then
          move 1
          discard (skip true true)
          return item :: (← flowItems indent depth)
        else
          require (← isNext "]")
          move 1
          return [item]

def flowEntries (indent : Int) : Nat → Reader (List (Node × Node))
  | 0 => failure
  | depth + 1 => do
      if ← isNext "\x7d" then
        move 1
        return []
      else
        let (key, value) ← flowEntry indent depth
        let entry := (key, value.getD Node.empty)
        discard (skip true true)
        if ← isNext "," then
          move 1
          discard (skip true true)
          return entry :: (← flowEntries indent depth)
        else
          require (← isNext "\x7d")
          move 1
          return [entry]

end

/-- A node without what is said before it, where no block begins. -/
def inlineNode (depth : Nat) (parent : Int) : Reader Node := do
  if ← isNext "[\x7b" then flowBody (parent + 1) depth
  else if ← isNext "|>" then
    let (text, after) ← (blockScalar parent (← look) : Option (String × Cursor))
    goTo after
    return .scalar false none text
  else atom false (parent + 1)

/-! In blocks. -/

/-- Does a colon follow on the given line, so that what was read is a key? -/
def isKey (line : Nat) : Reader Bool := do
  let cursor ← look
  let behind := cursor.rest.dropWhile isBlank
  return cursor.line == line && isIndicator ':' behind

/-- Goes to the colon behind a key, and past it. -/
def passColon : Reader Unit := do
  let cursor ← look
  move ((cursor.rest.takeWhile isBlank).length + 1)

mutual

/-- A node that is indented more than `parent`, or a list whose dashes are indented more than
`dash`. A block may begin here only if nothing but indicators of blocks stands before it on its
line, that is, if the place is `fresh`. -/
def blockNode (parent dash : Int) (fresh : Bool) : Nat → Reader Node
  | 0 => failure
  | depth + 1 => do
      let start ← look
      let column : Int := start.column
      if start.isAtEnd then return Node.empty
      else if isIndicator '-' start.rest then
        require fresh
        if dash < column then return .list (← blockItems start.column (column ≤ parent) depth)
        else return Node.empty
      else if column ≤ parent then return Node.empty
      else if isIndicator '?' start.rest || isIndicator ':' start.rest then
        require fresh
        return .record (← blockEntries start.column depth)
      else
        let said ← properties false
        if said.isBroken then
          let node ← blockNode parent dash true depth
          record said.anchor (node.tagged said.tag)
        else if said.isGiven && (← look).isAtEnd then
          record said.anchor (Node.empty.tagged said.tag)
        else
          let isBlock ← isNext "|>"
          let node ← inlineNode depth parent
          let node ← record said.anchor (node.tagged said.tag)
          if !isBlock && (← isKey start.line) then
            require fresh
            let value ← blockValue start.column depth
            return .record ((node, value) :: (← furtherEntries start.column depth))
          else return node
termination_by structural depth => depth

def blockValue (column : Nat) : Nat → Reader Node
  | 0 => failure
  | depth + 1 => do
      passColon
      let isBroken ← skip false true
      blockNode column (Int.ofNat column - 1) isBroken depth
termination_by structural depth => depth

/-- What follows a question mark, or a colon at the beginning of an entry. -/
def explicitPart (column : Nat) : Nat → Reader Node
  | 0 => failure
  | depth + 1 => do
      move 1
      discard (skip false false)
      blockNode column (Int.ofNat column - 1) true depth
termination_by structural depth => depth

/-- The further entries of a record whose keys stand in a column. -/
def furtherEntries (column : Nat) : Nat → Reader (List (Node × Node))
  | 0 => failure
  | depth + 1 => do
      discard (skip false true)
      let next ← look
      if next.isAtEnd || next.column < column then return []
      else
        require (next.column == column)
        blockEntries column depth
termination_by structural depth => depth

/-- The entries of a record whose keys stand in a column, where one begins. -/
def blockEntries (column : Nat) : Nat → Reader (List (Node × Node))
  | 0 => failure
  | depth + 1 => do
      let start ← look
      let entry ←
        if isIndicator '?' start.rest then do
          let key ← explicitPart column depth
          discard (skip false true)
          let next ← look
          if next.column == column && isIndicator ':' next.rest then
            pure (key, ← explicitPart column depth)
          else pure (key, Node.empty)
        else if isIndicator ':' start.rest then do
          pure (Node.empty, ← explicitPart column depth)
        else do
          let said ← properties false
          require (!said.isBroken)
          let key ← inlineNode depth column
          let key ← record said.anchor (key.tagged said.tag)
          require (← isKey start.line)
          pure (key, ← blockValue column depth)
      return entry :: (← furtherEntries column depth)
termination_by structural depth => depth

/-- The items of a list whose dashes stand in a column. Where dashes may stand in the column of
the keys around the list, the next key ends it. -/
def blockItems (column : Nat) (besideKeys : Bool) : Nat → Reader (List Node)
  | 0 => failure
  | depth + 1 => do
      move 1
      discard (skip false false)
      let item ← blockNode column column true depth
      discard (skip false true)
      let next ← look
      if next.isAtEnd || next.column < column then return [item]
      else
        require (next.column == column)
        if isIndicator '-' next.rest then return item :: (← blockItems column besideKeys depth)
        else
          require besideKeys
          return [item]
termination_by structural depth => depth

end

/-! Documents. -/

/-- Passes over lines for the reader itself; tells whether there are any. -/
def directives : Nat → Reader Bool
  | 0 => return false
  | depth + 1 => do
      let start ← look
      if start.column == 0 && start.rest.head? == some '%' then
        let line := start.rest.takeWhile fun c => !isBreak c
        let words := (Text.splitAt ' ' (String.ofList line)).filter (· != "")
        require (words == ["%YAML", "1.1"] || words == ["%YAML", "1.2"] ||
          words.head? == some "%TAG")
        move line.length
        discard (skip false true)
        discard (directives depth)
        return true
      else return false

def documentEnds : Nat → Reader Unit
  | 0 => return ()
  | depth + 1 => do
      let cursor ← look
      if cursor.column == 0 && isMarker cursor.rest && cursor.rest.head? == some '.' then
        move 3
        discard (skip false true)
        documentEnds depth

/-- The document of a text, if there is one. There must not be more. -/
def document (depth : Nat) : Reader (Option Node) := do
  discard (skip false false)
  documentEnds depth
  let directed ← directives depth
  let start ← look
  let isMarked := start.column == 0 && isMarker start.rest && start.rest.head? == some '-'
  require (isMarked || !directed)
  if start.rest.isEmpty then return none
  else
    let fresh ← if isMarked then do
        move 3
        skip false true
      else pure true
    let node ← blockNode (-1) (-1) fresh depth
    discard (skip false true)
    documentEnds depth
    require (← look).rest.isEmpty
    return some node

end Reader

def isAllowed (c : Char) : Bool :=
  let code := c.toNat
  code == 0x09 || code == 0x0A || code == 0x0D || (0x20 ≤ code && code ≤ 0x7E) ||
    code == 0x85 || (0xA0 ≤ code && code ≤ 0xFFFD && code != 0xFEFF) || 0x10000 ≤ code

/-- The text with a line feed for every break that is written in another way. -/
def unified : List Char → List Char
  | '\r' :: '\n' :: rest => '\n' :: unified rest
  | '\r' :: rest => '\n' :: unified rest
  | '\u0085' :: rest => '\n' :: unified rest
  | c :: rest => c :: unified rest
  | [] => []

/-- Reads the only document of a text. There may be none; the text may also be no YAML. -/
def read (text : String) : Option (Option Node) :=
  let characters := match text.toList with
    | '\uFEFF' :: rest => rest
    | characters => characters
  if !characters.all isAllowed then none
  else
    let characters := unified characters
    -- Every level and every item takes at least one character.
    let depth := 8 * (characters.length + 1)
    ((Reader.document depth).run { cursor := { rest := characters } }).map (·.1)

end Rollout.Yaml
