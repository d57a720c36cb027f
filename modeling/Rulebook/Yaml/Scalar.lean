import Rulebook.Text.Class
import Rulebook.Json.Lexeme

/-!
# Written scalars

The written forms of YAML scalars, as functions on what is left of a text: plain ones, quoted ones
and block scalars. Line breaks inside of them are folded: a single one becomes a space, and of
several the first one is dropped. All line breaks of a text are line feeds here.
-/

namespace Rulebook.Yaml

/-- A place in a text: what is left, the column, and whether only blanks stand before it on its
line. -/
structure Cursor where
  rest : List Char
  column : Nat := 0
  fresh : Bool := true

namespace Cursor

/-- The column after the characters `passed`, which start at `column`. -/
def columnAfter (column : Nat) (passed : List Char) : Nat :=
  passed.foldl (fun column c => if c = '\n' then 0 else column + 1) column

/-- The place where `rest` is left, a piece of content having been passed. -/
def moveTo (cur : Cursor) (rest : List Char) : Cursor :=
  ⟨rest, columnAfter cur.column (cur.rest.take (cur.rest.length - rest.length)), false⟩

end Cursor

/-- Whether a key without a mark of its own may stand between two places, of which the second one is
behind its colon: it stays on its line and is not too long. -/
def fitsKey (start finish : List Char) : Bool :=
  let passed := start.take (start.length - finish.length)
  !passed.contains '\n' && passed.length ≤ 1025

/-- A blank within a line. -/
def isBlank (c : Char) : Bool := c == ' ' || c == '\t'

/-- Whether a blank, a line break or the end is next. -/
def blankNext : List Char → Bool
  | [] => true
  | c :: _ => isBlank c || c == '\n'

/-- A sign with a meaning of its own inside flow collections. -/
def isFlowSign (c : Char) : Bool := c == ',' || c == '[' || c == ']' || c == '\x7b' || c == '\x7d'

/-- Whether a mark of the start or end of a document is next. -/
def markNext : List Char → Bool
  | '-' :: '-' :: '-' :: rest => blankNext rest
  | '.' :: '.' :: '.' :: rest => blankNext rest
  | _ => false

/-- Passes blanks, comments and line breaks. With `tabs` a tab counts as a blank; at the start of a
line it does so only in a flow collection. -/
def skipGap (flow : Bool) :
    (tabs comment : Bool) → List Char → (column : Nat) → (fresh : Bool) → Cursor
  | _, _, [], column, fresh => ⟨[], column, fresh⟩
  | tabs, comment, c :: rest, column, fresh =>
    if c = '\n' then skipGap flow flow false rest 0 true
    else if comment then skipGap flow tabs true rest (column + 1) fresh
    else if c = ' ' then skipGap flow tabs false rest (column + 1) fresh
    else if c = '\t' ∧ tabs then skipGap flow tabs false rest (column + 1) fresh
    else if c = '#' then skipGap flow tabs true rest (column + 1) fresh
    else ⟨c :: rest, column, fresh⟩

/-- The text that stands for a gap of line breaks. -/
def folded (breaks : Nat) : List Char :=
  if breaks = 1 then [' '] else List.replicate (breaks - 1) '\n'

/-- Passes line breaks and the blanks after them: the number of breaks, the column and what is
left. -/
def passBreaks : (breaks column : Nat) → List Char → Nat × Nat × List Char
  | breaks, column, c :: rest =>
    if c = '\n' then passBreaks (breaks + 1) 0 rest
    else if isBlank c then passBreaks breaks (column + 1) rest
    else (breaks, column, c :: rest)
  | breaks, column, [] => (breaks, column, [])

/-- Whether a tab stands in front of the column `least` among the blanks and line breaks that come
next. -/
def tabIndented (least : Nat) : (column : Nat) → List Char → Bool
  | column, c :: rest =>
    if c = '\n' then tabIndented least 0 rest
    else if c = ' ' then tabIndented least (column + 1) rest
    else if c = '\t' then column < least || tabIndented least (column + 1) rest
    else false
  | _, [] => false

/-! ### Plain scalars -/

/-- The characters of a plain scalar up to the next blank or sign, and what follows them. -/
def splitPlain (flow : Bool) : List Char → Option (List Char × List Char)
  | [] => some ([], [])
  | c :: rest =>
    if isBlank c ∨ c = '\n' then some ([], c :: rest)
    else if c = ':' ∧ blankNext rest then some ([], c :: rest)
    else if flow ∧ isFlowSign c then some ([], c :: rest)
    else if flow ∧ c = ':' ∧ (rest.head?.any isFlowSign || rest.head? == some '?') then none
    else (splitPlain flow rest).map fun (inside, after) => (c :: inside, after)

/-- The rest of a plain scalar after the characters `before`, which are in reverse, and what follows
it. Outside of flow collections its lines stand at the column `least` or behind it; up to there none
is indented with tabs. -/
def readPlainFrom (flow : Bool) (least : Nat) :
    (fuel : Nat) → (before : List Char) → List Char → Option (List Char × List Char)
  | 0, _, _ => none
  | fuel + 1, before, s =>
    let blanks := s.takeWhile isBlank
    match s.dropWhile isBlank with
    | [] => some (before, [])
    | '\n' :: rest =>
      let (breaks, column, after) := passBreaks 0 0 ('\n' :: rest)
      if tabIndented least 0 rest then none
      else if (!flow && column < least) || (column == 0 && markNext after) ||
          after.head? == some '#' then
        some (before, s)
      else do
        let (inside, rest) ← splitPlain flow after
        if inside.isEmpty then some (before, s)
        else readPlainFrom flow least fuel (inside.reverse ++ folded breaks ++ before) rest
    | c :: rest =>
      if c = '#' then some (before, s)
      else do
        let (inside, rest) ← splitPlain flow (c :: rest)
        if inside.isEmpty then some (before, s)
        else readPlainFrom flow least fuel (inside.reverse ++ blanks ++ before) rest

/-- Whether a plain scalar can start here. -/
def startsPlain (flow : Bool) : List Char → Bool
  | [] => false
  | c :: rest =>
    if c = '-' then !rest.head?.any isBlank && !(rest.head? == some '\n') && !rest.isEmpty
    else if c = '?' ∨ c = ':' then !flow && !blankNext rest
    else !(blankNext (c :: rest) || isFlowSign c || "#&*!|>'\"%@\x60".toList.contains c)

/-- The plain scalar at the start of a text, and what follows it. -/
def readPlain (flow : Bool) (least : Nat) (s : List Char) : Option (String × List Char) := do
  if !startsPlain flow s then none
  let (inside, rest) ← splitPlain flow s
  let (text, rest) ← readPlainFrom flow least (s.length + 1) inside.reverse rest
  return (String.ofList text.reverse, rest)

/-! ### Quoted scalars -/

/-- The character that a backslash and `c` stand for, when `c` alone decides. -/
def shortEscape? (c : Char) : Option Char :=
  match c with
  | '0' => some '\x00'
  | 'a' => some '\x07'
  | 'b' => some '\x08'
  | 't' => some '\t'
  | '\t' => some '\t'
  | 'n' => some '\n'
  | 'v' => some '\x0b'
  | 'f' => some '\x0c'
  | 'r' => some '\r'
  | 'e' => some '\x1b'
  | ' ' => some ' '
  | '"' => some '"'
  | '/' => some '/'
  | '\\' => some '\\'
  | 'N' => some (Char.ofNat 0x85)
  | '_' => some (Char.ofNat 0xa0)
  | 'L' => some (Char.ofNat 0x2028)
  | 'P' => some (Char.ofNat 0x2029)
  | _ => none

/-- The number of hexadecimal digits after a backslash and `c`. -/
def escapeWidth? (c : Char) : Option Nat :=
  match c with
  | 'x' => some 2
  | 'u' => some 4
  | 'U' => some 8
  | _ => none

/-- The rest of a quoted scalar after the characters `before`, which are in reverse, and what
follows its closing quote. -/
def readQuotedFrom (double : Bool) :
    (fuel : Nat) → (column : Nat) → (before : List Char) → List Char →
      Option (List Char × List Char)
  | 0, _, _, _ => none
  | _ + 1, _, _, [] => none
  | fuel + 1, column, before, c :: rest =>
    if column = 0 ∧ markNext (c :: rest) then none
    else if c = '\'' ∧ ¬ double then
      match rest with
      | '\'' :: rest => readQuotedFrom double fuel (column + 2) ('\'' :: before) rest
      | rest => some (before, rest)
    else if c = '"' ∧ double then some (before, rest)
    else if c = '\\' ∧ double then
      match rest with
      | [] => none
      | '\n' :: rest =>
        let (breaks, column, rest) := passBreaks 0 0 rest
        readQuotedFrom double fuel column (List.replicate breaks '\n' ++ before) rest
      | c :: rest =>
        match shortEscape? c, escapeWidth? c with
        | some c, _ => readQuotedFrom double fuel (column + 2) (c :: before) rest
        | none, some width =>
          if rest.length < width then none
          else
            match (rest.take width).mapM Json.hexDigit? with
            | some values =>
              let n := values.foldl (fun n d => 16 * n + d) 0
              if h : n.isValidChar then
                readQuotedFrom double fuel (column + 2 + width) (Char.ofNatAux n h :: before)
                  (rest.drop width)
              else none
            | none => none
        | none, none => none
    else if isBlank c ∨ c = '\n' then
      let blanks := (c :: rest).takeWhile isBlank
      match (c :: rest).dropWhile isBlank with
      | '\n' :: rest =>
        let (breaks, column, rest) := passBreaks 0 0 ('\n' :: rest)
        readQuotedFrom double fuel column (folded breaks ++ before) rest
      | rest => readQuotedFrom double fuel (column + blanks.length) (blanks ++ before) rest
    else readQuotedFrom double fuel (column + 1) (c :: before) rest

/-- The quoted scalar whose opening quote was read already, and what follows it. -/
def readQuoted (double : Bool) (s : List Char) : Option (String × List Char) :=
  (readQuotedFrom double (s.length + 1) 1 [] s).map fun (text, rest) =>
    (String.ofList text.reverse, rest)

/-! ### Block scalars -/

/-- What happens to the line breaks at the end of a block scalar. -/
inductive Chomping where
  | strip
  | clip
  | keep
  deriving DecidableEq

/-- The indicators of a block scalar: what happens to its last line breaks, and its indentation. -/
def readIndicators : List Char → Option (Chomping × Option Nat × List Char)
  | '+' :: c :: rest =>
    if c.isDigit then if c = '0' then none else some (.keep, some (c.toNat - '0'.toNat), rest)
    else some (.keep, none, c :: rest)
  | '-' :: c :: rest =>
    if c.isDigit then if c = '0' then none else some (.strip, some (c.toNat - '0'.toNat), rest)
    else some (.strip, none, c :: rest)
  | ['+'] => some (.keep, none, [])
  | ['-'] => some (.strip, none, [])
  | c :: rest =>
    if c.isDigit then
      if c = '0' then none
      else
        let width := some (c.toNat - '0'.toNat)
        match rest with
        | '+' :: rest => some (.keep, width, rest)
        | '-' :: rest => some (.strip, width, rest)
        | rest => some (.clip, width, rest)
    else some (.clip, none, c :: rest)
  | [] => some (.clip, none, [])

/-- The widest indentation of the blank lines at the start, and of the line after them. -/
def blockIndent (widest : Nat) : (column : Nat) → List Char → Nat
  | column, c :: rest =>
    if c = ' ' then blockIndent widest (column + 1) rest
    else if c = '\n' then blockIndent (max widest column) 0 rest
    else max widest column
  | column, [] => max widest column

/-- Passes indentation up to the column `indent` and empty lines: the number of line breaks, the
column and what is left. -/
def passIndent (indent : Nat) : (breaks column : Nat) → List Char → Nat × Nat × List Char
  | breaks, column, c :: rest =>
    if c = ' ' ∧ column < indent then passIndent indent breaks (column + 1) rest
    else if c = '\n' then passIndent indent (breaks + 1) 0 rest
    else (breaks, column, c :: rest)
  | breaks, column, [] => (breaks, column, [])

/-- The lines of a block scalar after the text `before`, which is in reverse. `leading` says whether
a line break waits to be written, `breaks` how many empty lines came after it, and `indented`
whether the line before starts with a blank. The answer has the line breaks that wait at the end. -/
def readBlockLines (literal : Bool) (indent : Nat) : (fuel : Nat) → (before : List Char) →
    (leading : Bool) → (breaks : Nat) → (indented : Bool) → (column : Nat) → List Char →
      List Char × Bool × Nat × Nat × List Char
  | 0, before, leading, breaks, _, column, s => (before, leading, breaks, column, s)
  | fuel + 1, before, leading, breaks, indented, column, s =>
    if column = indent ∧ ¬ s.isEmpty then
      let nowIndented := s.head?.any isBlank
      let gap :=
        if leading ∧ ¬ literal ∧ ¬ indented ∧ ¬ nowIndented then
          if breaks = 0 then [' '] else List.replicate breaks '\n'
        else List.replicate ((if leading then 1 else 0) + breaks) '\n'
      let line := s.takeWhile (· != '\n')
      let rest := s.dropWhile (· != '\n')
      let (leading, rest) := match rest with
        | _ :: rest => (true, rest)
        | [] => (false, [])
      let (breaks, column, rest) := passIndent indent 0 0 rest
      readBlockLines literal indent fuel (line.reverse ++ gap ++ before) leading breaks nowIndented
        column rest
    else (before, leading, breaks, column, s)

/-- Whether the first line with something else than spaces begins with a tab after them. -/
def startsWithTab (s : List Char) : Bool :=
  (s.dropWhile fun c => c == ' ' || c == '\n').head? == some '\t'

/-- The block scalar whose sign was read already: its text and the place after it. Its lines are
indented to the column `least` or farther, with spaces only. -/
def readBlock (literal : Bool) (least : Nat) (s : List Char) : Option (String × Cursor) := do
  let (chomping, width, rest) ← readIndicators s
  let rest := match rest.dropWhile isBlank with
    | '#' :: comment => comment.dropWhile (· != '\n')
    | rest => rest
  let body ← match rest with
    | '\n' :: body => some body
    | [] => some []
    | _ => none
  if width.isNone && startsWithTab body then none
  let indent := match width with
    | some width => if least = 0 then width else least - 1 + width
    | none => max (max (blockIndent 0 0 body) least) 1
  let (breaks, column, start) := passIndent indent 0 0 body
  let (text, leading, breaks, column, rest) :=
    readBlockLines literal indent (s.length + 1) [] false breaks false column start
  if column < indent && rest.head? == some '\t' then none
  let tail := match chomping with
    | .strip => []
    | .clip => if leading then ['\n'] else []
    | .keep => List.replicate ((if leading then 1 else 0) + breaks) '\n'
  return (String.ofList (tail ++ text).reverse, ⟨rest, column, true⟩)

end Rulebook.Yaml
