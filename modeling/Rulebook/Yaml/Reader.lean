import Rulebook.Yaml.Node
import Rulebook.Yaml.Scalar

/-!
# Reading YAML

A text denotes one node. Block collections are told apart by the columns at which their entries
start: an entry belongs to the innermost collection that starts at its column, and content farther
to the left ends the collection. A key without a mark of its own stands on the line of its colon.
Names given to nodes and handles of tags are kept in `Names`.
-/

namespace Rulebook.Yaml

/-- What the names in a document stand for so far. -/
structure Names where
  nodes : List (String × Node) := []
  /-- What the handles stand for with which tags begin. -/
  handles : List (String × String) := []

/-- What the two handles stand for that every document has. -/
def commonHandles : List (String × String) := [("!", "!"), ("!!", "tag:yaml.org,2002:")]

/-- The anchor and the tag in front of a node. -/
structure Properties where
  anchor : Option String := none
  tag : Option String := none

namespace Properties

/-- Whether there are no properties. -/
def isEmpty (props : Properties) : Bool := props.anchor.isNone && props.tag.isNone

/-- The node with the tag. A lone exclamation mark is no tag for a scalar that has a text. -/
def onNode (props : Properties) (node : Node) : Node :=
  match props.tag, node with
  | none, node => node
  | some "!", .scalar _ plain text =>
    .scalar (if plain && text.isEmpty then some "!" else none) plain text
  | some tag, .scalar _ plain text => .scalar (some tag) plain text
  | some tag, .sequence _ items => .sequence (some tag) items
  | some tag, .mapping _ pairs => .mapping (some tag) pairs

/-- The names with the node under its name, if it has one. -/
def onNames (props : Properties) (node : Node) (names : Names) : Names :=
  match props.anchor with
  | some name => { names with nodes := (name, node) :: names.nodes }
  | none => names

end Properties

/-- The node that stands for nothing. -/
def nothing : Node := .scalar none true ""

/-- A character of the name of an anchor, a handle or a directive. -/
def isNameChar (c : Char) : Bool := c.isAlphanum || c == '_' || c == '-'

/-- The name of an anchor or alias, whose sign was read already. -/
def readName (s : List Char) : Option (String × List Char) :=
  let name := s.takeWhile isNameChar
  let rest := s.dropWhile isNameChar
  if name.isEmpty then none
  else if blankNext rest || rest.head?.any fun c => "?:,]\x7d%@\x60".toList.contains c then
    some (String.ofList name, rest)
  else none

/-- A character of a tag; with `verbatim` some signs of flow collections are such characters too. -/
def isTagChar (verbatim : Bool) (c : Char) : Bool :=
  isNameChar c || ";/?:@&=+$.!~*'()".toList.contains c ||
    verbatim && (c == ',' || c == '[' || c == ']')

/-- The bytes of the tag at the start of a text, where two hexadecimal digits after a percent sign
stand for a byte, and what follows it. -/
def readTagBytes (verbatim : Bool) : List Char → Option (List UInt8 × List Char)
  | '%' :: a :: b :: rest => do
    let high ← Json.hexDigit? a
    let low ← Json.hexDigit? b
    let (bytes, after) ← readTagBytes verbatim rest
    return (UInt8.ofNat (16 * high + low) :: bytes, after)
  | '%' :: _ => none
  | c :: rest =>
    if isTagChar verbatim c then do
      let (bytes, after) ← readTagBytes verbatim rest
      return (UInt8.ofNat c.toNat :: bytes, after)
    else some ([], c :: rest)
  | [] => some ([], [])

/-- The text of the tag at the start of a text, and what follows it. -/
def readTagText (verbatim : Bool) (s : List Char) : Option (String × List Char) := do
  let (bytes, rest) ← readTagBytes verbatim s
  return (← String.fromUTF8? ⟨bytes.toArray⟩, rest)

/-- The tag whose exclamation mark was read already. It is written in full between angle brackets,
or with a handle in front. -/
def readTag (flow : Bool) (handles : List (String × String)) (s : List Char) :
    Option (String × List Char) := do
  let (tag, rest) ←
    match s with
    | '<' :: rest =>
      match ← readTagText true rest with
      | (tag, '>' :: after) => if tag.isEmpty then none else some (tag, after)
      | _ => none
    | s =>
      match s.dropWhile isNameChar with
      | '!' :: rest => do
        let (tag, rest) ← readTagText false rest
        let start ← handles.lookup ("!" ++ String.ofList (s.takeWhile isNameChar) ++ "!")
        if tag.isEmpty then none else some (start ++ tag, rest)
      | _ => do
        let (tag, rest) ← readTagText false s
        let start ← handles.lookup "!"
        some (if tag.isEmpty then "!" else start ++ tag, rest)
  if blankNext rest || (flow && rest.head? == some ',') then some (tag, rest) else none

/-- The properties at the start of a text, and what follows the last one. -/
def readProperties (flow : Bool) (handles : List (String × String)) :
    (fuel : Nat) → Properties → List Char → Option (Properties × List Char)
  | 0, _, _ => none
  | fuel + 1, props, s =>
    match s with
    | '&' :: rest =>
      if props.anchor.isSome then none
      else do
        let (name, rest) ← readName rest
        proceed fuel { props with anchor := some name } rest
    | '!' :: rest =>
      if props.tag.isSome then none
      else do
        let (tag, rest) ← readTag flow handles rest
        proceed fuel { props with tag := some tag } rest
    | s => some (props, s)
where
  /-- Goes on when another property follows on the same line. -/
  proceed (fuel : Nat) (props : Properties) (rest : List Char) : Option (Properties × List Char) :=
    match rest.dropWhile isBlank with
    | '&' :: more => readProperties flow handles fuel props ('&' :: more)
    | '!' :: more => readProperties flow handles fuel props ('!' :: more)
    | _ => some (props, rest)

/-- What is left of a text after blanks, comments and line breaks inside a flow collection; a mark
of a document may not stand there. -/
def skipFlow (s : List Char) : Option (List Char) :=
  let after := skipGap true true false s 1 false
  if after.fresh && after.column == 0 && markNext after.rest then none else some after.rest

/-! ### Flow nodes -/

mutual

/-- A node inside a flow collection, and what follows it. -/
def readFlow (least : Nat) : (fuel : Nat) → Names → List Char → Option (Node × Names × List Char)
  | 0, _, _ => none
  | fuel + 1, names, s => do
    let (props, s) ← readProperties true names.handles (s.length + 1) {} s
    let s ← if props.isEmpty then some s else skipFlow s
    let emptyAllowed := !props.isEmpty
    match s with
    | '*' :: rest =>
      if !props.isEmpty then none
      let (name, rest) ← readName rest
      let node ← names.nodes.lookup name
      return (node, names, rest)
    | c :: _ =>
      if emptyAllowed && (c == ',' || c == ']' || c == '\x7d' || c == ':') then
        let node := props.onNode nothing
        return (node, props.onNames node names, s)
      else
        let (node, names, rest) ← readFlowContent least fuel names s
        let node := props.onNode node
        return (node, props.onNames node names, rest)
    | [] => none

/-- A flow collection or a scalar without properties, and what follows it. -/
def readFlowContent (least : Nat) :
    (fuel : Nat) → Names → List Char → Option (Node × Names × List Char)
  | 0, _, _ => none
  | fuel + 1, names, s =>
    match s with
    | '[' :: rest => do
      let (items, names, rest) ← readFlowItems least fuel names rest
      return (.sequence none items, names, rest)
    | '\x7b' :: rest => do
      let (pairs, names, rest) ← readFlowPairs least fuel names rest
      return (.mapping none pairs, names, rest)
    | '"' :: rest => do
      let (text, rest) ← readQuoted true rest
      return (.scalar none false text, names, rest)
    | '\'' :: rest => do
      let (text, rest) ← readQuoted false rest
      return (.scalar none false text, names, rest)
    | s => do
      let (text, rest) ← readPlain true least s
      return (.scalar none true text, names, rest)

/-- The value after the colon of a pair, which is missing before `close` or a comma. -/
def readFlowValue (least : Nat) (close : Char) :
    (fuel : Nat) → Names → List Char → Option (Node × Names × List Char)
  | 0, _, _ => none
  | fuel + 1, names, s => do
    let s ← skipFlow s
    match s with
    | [] => none
    | c :: _ =>
      if c = ',' ∨ c = close then return (nothing, names, s) else readFlow least fuel names s

/-- A key and the value that may follow it. An `explicit` key, which came after a question mark, may
be missing; every other one stands on the line of its colon. -/
def readFlowPair (least : Nat) (close : Char) : (fuel : Nat) → (explicit : Bool) → Names →
    List Char → Option (Node × Option Node × Names × List Char)
  | 0, _, _, _ => none
  | fuel + 1, explicit, names, s => do
    let missing := explicit && s.head?.any fun c => c == ':' || c == ',' || c == close
    let (key, names, rest) ←
      if missing then some (nothing, names, s) else readFlow least fuel names s
    let rest ← skipFlow rest
    match rest with
    | ':' :: rest =>
      if !explicit && !fitsKey s rest then none
      let (value, names, rest) ← readFlowValue least close fuel names rest
      return (key, some value, names, rest)
    | rest => return (key, none, names, rest)

/-- The items of a flow sequence up to its closing bracket, and what follows it. -/
def readFlowItems (least : Nat) :
    (fuel : Nat) → Names → List Char → Option (List Node × Names × List Char)
  | 0, _, _ => none
  | fuel + 1, names, s => do
    let s ← skipFlow s
    match s with
    | ']' :: rest => return ([], names, rest)
    | s =>
      let (item, names, rest) ← match s with
        | '?' :: rest => do
          let rest ← skipFlow rest
          let (key, value, names, rest) ← readFlowPair least ']' fuel true names rest
          some (Node.mapping none [(key, value.getD nothing)], names, rest)
        | s => do
          let (key, value, names, rest) ← readFlowPair least ']' fuel false names s
          match value with
          | some value => some (Node.mapping none [(key, value)], names, rest)
          | none => some (key, names, rest)
      let rest ← skipFlow rest
      match rest with
      | ',' :: rest =>
        let (items, names, rest) ← readFlowItems least fuel names rest
        return (item :: items, names, rest)
      | ']' :: rest => return ([item], names, rest)
      | _ => none

/-- The pairs of a flow mapping up to its closing brace, and what follows it. -/
def readFlowPairs (least : Nat) : (fuel : Nat) → Names → List Char →
    Option (List (Node × Node) × Names × List Char)
  | 0, _, _ => none
  | fuel + 1, names, s => do
    let s ← skipFlow s
    match s with
    | '\x7d' :: rest => return ([], names, rest)
    | s =>
      let (key, value, names, rest) ← match s with
        | '?' :: rest => do readFlowPair least '\x7d' fuel true names (← skipFlow rest)
        | s => readFlowPair least '\x7d' fuel false names s
      let pair := (key, value.getD nothing)
      let rest ← skipFlow rest
      match rest with
      | ',' :: rest =>
        let (pairs, names, rest) ← readFlowPairs least fuel names rest
        return (pair :: pairs, names, rest)
      | '\x7d' :: rest => return ([pair], names, rest)
      | _ => none

end

/-! ### Block nodes -/

/-- Passes blanks, comments and line breaks between block nodes. -/
def skipBlock (tabs : Bool) (cur : Cursor) : Cursor :=
  skipGap false tabs false cur.rest cur.column cur.fresh

/-- Whether the document ends at a place. -/
def endsDocument (cur : Cursor) : Bool :=
  cur.rest.isEmpty || (cur.column == 0 && markNext cur.rest)

/-- Whether `c` is next, and a blank or the end after it. -/
def signNext (c : Char) : List Char → Bool
  | d :: rest => d == c && blankNext rest
  | [] => false

/-- A flow collection, a quoted scalar, a plain scalar or an alias that starts at a place. Plain
scalars go on at the column `least` or behind it. -/
def readAtom (fuel least : Nat) (names : Names) (cur : Cursor) :
    Option (Node × Names × Cursor) :=
  match cur.rest with
  | '*' :: rest => do
    let (name, rest) ← readName rest
    let node ← names.nodes.lookup name
    return (node, names, cur.moveTo rest)
  | c :: rest =>
    if c = '"' ∨ c = '\'' ∨ c = '[' ∨ c = '\x7b' then do
      let (node, names, rest) ← readFlowContent least fuel names (c :: rest)
      return (node, names, cur.moveTo rest)
    else do
      let (text, rest) ← readPlain false least (c :: rest)
      return (.scalar none true text, names, cur.moveTo rest)
  | [] => none

/-- The place after the colon that makes what came before it a key, if there is one on the line. -/
def afterKey? (cur : Cursor) : Option Cursor :=
  match cur.rest.dropWhile isBlank with
  | ':' :: rest => if blankNext rest then some (cur.moveTo rest) else none
  | _ => none

/-- The properties at a place and the place after them. -/
def readBlockProperties (names : Names) (cur : Cursor) : Option (Properties × Cursor) := do
  let (props, rest) ← readProperties false names.handles (cur.rest.length + 1) {} cur.rest
  return (props, if props.isEmpty then cur else cur.moveTo rest)

/-- The key of an entry of a block mapping, which stands on one line, and the place after its
colon. -/
def readKey (fuel : Nat) (names : Names) (cur : Cursor) : Option (Node × Names × Cursor) := do
  let (props, start) ← readBlockProperties names cur
  let start := if props.isEmpty then start else skipBlock true start
  if start.fresh && !props.isEmpty then none
  let (node, names, finish) ←
    if !props.isEmpty && signNext ':' start.rest then some (nothing, names, start)
    else if !props.isEmpty && start.rest.head? == some '*' then none
    else readAtom fuel (start.column + 1) names start
  let after ← afterKey? finish
  if !fitsKey cur.rest after.rest then none
  let node := props.onNode node
  return (node, props.onNames node names, after)

mutual

/-- The node at a place, whose content stands at the column `least` or behind it; a sequence that
starts on a line of its own may stand at the column `leastItem`. With `compact` a collection may
start on the current line. -/
def readBlockNode : (fuel least leastItem : Nat) → (compact : Bool) → Names → Cursor →
    Option (Node × Names × Cursor)
  | 0, _, _, _, _, _ => none
  | fuel + 1, least, leastItem, compact, names, cur =>
    let start := skipBlock (!compact && !cur.fresh) cur
    let dash := signNext '-' start.rest
    if endsDocument start then some (nothing, names, start)
    else if start.fresh && start.column < least && !(dash && leastItem ≤ start.column) then
      some (nothing, names, start)
    else if dash then
      if start.fresh || compact then do
        let (items, names, after) ← readBlockItems fuel start.column names start
        return (.sequence none items, names, after)
      else none
    else if signNext '?' start.rest then
      if start.fresh || compact then do
        let (pairs, names, after) ← readBlockPairs fuel start.column names start
        return (.mapping none pairs, names, after)
      else none
    else do
      let (props, content) ← readBlockProperties names start
      if props.isEmpty then readContent fuel least (start.fresh || compact) names start
      else
        let next := skipBlock true content
        if next.fresh || endsDocument next then
          let (node, names, after) ← readBlockNode fuel least leastItem false names content
          let node := props.onNode node
          return (node, props.onNames node names, after)
        else if (start.fresh || compact) && (readKey fuel names start).isSome then
          let (pairs, names, after) ← readBlockPairs fuel start.column names start
          return (.mapping none pairs, names, after)
        else if next.rest.head? == some '*' || signNext '-' next.rest || signNext '?' next.rest then
          none
        else
          let (node, names, after) ← readContent fuel least false names next
          let node := props.onNode node
          return (node, props.onNames node names, after)

/-- The node without properties that starts at a place. With `mapping` it may be the first key of a
mapping. -/
def readContent : (fuel least : Nat) → (mapping : Bool) → Names → Cursor →
    Option (Node × Names × Cursor)
  | 0, _, _, _, _ => none
  | fuel + 1, least, mapping, names, start =>
    match start.rest with
    | '|' :: rest => do
      let (text, after) ← readBlock true least rest
      return (.scalar none false text, names, after)
    | '>' :: rest => do
      let (text, after) ← readBlock false least rest
      return (.scalar none false text, names, after)
    | _ => do
      let (node, newNames, finish) ← readAtom fuel least names start
      match afterKey? finish with
      | none => return (node, newNames, finish)
      | some after =>
        if mapping && fitsKey start.rest after.rest then
          let (pairs, names, after) ← readBlockPairs fuel start.column names start
          return (.mapping none pairs, names, after)
        else none

/-- The items of the block sequence at a column, from a place at its dash on. -/
def readBlockItems : (fuel column : Nat) → Names → Cursor → Option (List Node × Names × Cursor)
  | 0, _, _, _ => none
  | fuel + 1, column, names, cur => do
    let (item, names, after) ←
      readBlockNode fuel (column + 1) (column + 1) true names (cur.moveTo (cur.rest.drop 1))
    let next := skipBlock true after
    if endsDocument next then return ([item], names, next)
    else if !next.fresh || column < next.column then none
    else if next.column = column && signNext '-' next.rest then
      let (items, names, after) ← readBlockItems fuel column names next
      return (item :: items, names, after)
    else return ([item], names, next)

/-- The pairs of the block mapping at a column, from a place at the start of a pair on. -/
def readBlockPairs : (fuel column : Nat) → Names → Cursor →
    Option (List (Node × Node) × Names × Cursor)
  | 0, _, _, _ => none
  | fuel + 1, column, names, cur => do
    let (pair, names, after) ←
      if signNext '?' cur.rest then do
        let (key, names, after) ←
          readBlockNode fuel (column + 1) (column + 1) true names (cur.moveTo (cur.rest.drop 1))
        let next := skipBlock true after
        if next.fresh && next.column = column && signNext ':' next.rest then
          let (value, names, after) ←
            readBlockNode fuel (column + 1) column true names (next.moveTo (next.rest.drop 1))
          some ((key, value), names, after)
        else some ((key, nothing), names, after)
      else do
        let (key, names, after) ← readKey fuel names cur
        let (value, names, after) ←
          readBlockNode fuel (column + 1) column false names { after with fresh := false }
        some ((key, value), names, after)
    let next := skipBlock true after
    if endsDocument next then return ([pair], names, next)
    else if !next.fresh || column < next.column then none
    else if next.column = column then
      let (pairs, names, after) ← readBlockPairs fuel column names next
      return (pair :: pairs, names, after)
    else return ([pair], names, next)

end

/-! ### Documents -/

/-- A character that may stand in a text: a blank, a line break, or what has a visible form. -/
def isAllowed (c : Char) : Bool :=
  let n := c.toNat
  n = 0x09 || n = 0x0a || n = 0x0d || n = 0x85 || (0x20 ≤ n && n ≤ 0x7e) ||
    (0xa0 ≤ n && n ≤ 0xfffd) || 0x10000 ≤ n

/-- The text with line feeds for all line breaks. -/
def unifyBreaks : List Char → List Char
  | '\r' :: '\n' :: rest => '\n' :: unifyBreaks rest
  | c :: rest => (if c = '\r' ∨ c = Char.ofNat 0x85 then '\n' else c) :: unifyBreaks rest
  | [] => []

/-- The text with line feeds for all line breaks and without a mark of its byte order. -/
def normalize (text : String) : List Char :=
  match text.toList with
  | c :: rest => if c = Char.ofNat 0xfeff then unifyBreaks rest else unifyBreaks (c :: rest)
  | [] => []

/-- What a line in front of a document can say. -/
inductive Directive where
  /-- The document is written in a version that this reader knows. -/
  | version
  /-- The handle stands for the beginning of a tag. -/
  | handle (name start : String)

/-- The version numbers at the start of a text, if they are 1.1 or 1.2, and what follows them. -/
def readVersion (s : List Char) : Option (List Char) :=
  let major := s.takeWhile Char.isDigit
  match s.dropWhile Char.isDigit with
  | '.' :: rest =>
    let minor := rest.takeWhile Char.isDigit
    let isNumber (digits : List Char) : Bool := !digits.isEmpty && digits.length ≤ 9
    if isNumber major && isNumber minor && Decimal.natOfDigits major == 1 &&
        (Decimal.natOfDigits minor == 1 || Decimal.natOfDigits minor == 2) then
      some (rest.dropWhile Char.isDigit)
    else none
  | _ => none

/-- The handle at the start of a text, and what follows it. -/
def readHandle (s : List Char) : Option (String × List Char) :=
  match s with
  | '!' :: rest =>
    let word := rest.takeWhile isNameChar
    match rest.dropWhile isNameChar with
    | '!' :: after => some (String.ofList ('!' :: word ++ ['!']), after)
    | after => if word.isEmpty then some ("!", after) else none
  | _ => none

/-- The directive whose percent sign was read already. Its line is all of the text. -/
def readDirective (line : List Char) : Option Directive := do
  let word := line.takeWhile isNameChar
  let rest := line.dropWhile isNameChar
  if !blankNext rest then none
  let rest := rest.dropWhile isBlank
  let (directive, rest) ←
    if word = "YAML".toList then (readVersion rest).map fun rest => (.version, rest)
    else if word = "TAG".toList then do
      let (name, rest) ← readHandle rest
      if !rest.head?.any isBlank then none
      let (start, rest) ← readTagText true (rest.dropWhile isBlank)
      if start.isEmpty || !blankNext rest then none
      some (.handle name start, rest)
    else none
  match rest.dropWhile isBlank with
  | [] => return directive
  | c :: _ => if c = '#' then return directive else none

/-- Passes the directives before a document and the mark of its start. `versioned` says whether a
version was named, and `handles` holds the handles that have a meaning by directives. -/
def skipPrologue : (fuel : Nat) → (directives versioned : Bool) →
    (handles : List (String × String)) → Cursor → Option (Names × Cursor)
  | 0, _, _, _, _ => none
  | fuel + 1, directives, versioned, handles, cur =>
    let next := skipBlock false cur
    let names : Names := { handles := handles ++ commonHandles }
    match next.rest with
    | '%' :: rest =>
      if next.column = 0 then do
        let after : Cursor := ⟨rest.dropWhile (· != '\n'), 1, true⟩
        match ← readDirective (rest.takeWhile (· != '\n')) with
        | .version => if versioned then none else skipPrologue fuel true true handles after
        | .handle name start =>
          if (handles.lookup name).isSome then none
          else skipPrologue fuel true versioned ((name, start) :: handles) after
      else none
    | '-' :: '-' :: '-' :: rest =>
      if next.column = 0 && blankNext rest then some (names, next.moveTo rest)
      else if directives then none else some (names, cur)
    | _ => if directives then none else some (names, cur)

/-- Whether nothing but marks of the document's end and blanks is left. -/
def isFinished : (fuel : Nat) → Cursor → Bool
  | 0, _ => false
  | fuel + 1, cur =>
    match cur.rest with
    | [] => true
    | '.' :: '.' :: '.' :: rest =>
      cur.column == 0 && blankNext rest && isFinished fuel (skipGap false true false rest 3 false)
    | _ => false

/-- The node that a text denotes. -/
def read? (text : String) : Option Node := do
  let s := normalize text
  if !s.all isAllowed then none
  let (names, start) ← skipPrologue (s.length + 1) false false [] ⟨s, 0, true⟩
  let (node, _, after) ← readBlockNode (4 * s.length + 8) 0 0 false names start
  if isFinished (s.length + 1) (skipBlock true after) then return node else none

end Rulebook.Yaml
