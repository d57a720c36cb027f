import Rulebook.Pattern.Basic
import Rulebook.Json.Lexeme

/-!
# Reading patterns

The written form of regular expressions: alternatives, repetitions, groups with flags, classes with
set operations, and escapes. What a text that is no regular expression suffers from is not told.
-/

namespace Rulebook.Pattern

/-- The switches in force at a place of a written pattern. -/
structure Flags where
  /-- Letters match in either case. -/
  ignoreCase : Bool := false
  /-- The line anchors hold at every line. -/
  multiLine : Bool := false
  /-- A dot matches line breaks too. -/
  dotAll : Bool := false
  /-- A carriage return is a line break too. -/
  returns : Bool := false
  /-- Blanks and comments are skipped. -/
  verbose : Bool := false

/-- The set, up to case if the flags say so. -/
def Flags.fold (flags : Flags) (set : CharSet) : CharSet :=
  if flags.ignoreCase then .anyCase set else set

/-- The set that a dot stands for. -/
def Flags.dot (flags : Flags) : CharSet :=
  if flags.dotAll then .compl .empty
  else if flags.returns then .compl (.ofString "\r\n")
  else .compl (.single '\n')

/-- The anchor that a circumflex stands for. -/
def Flags.start (flags : Flags) : Anchor :=
  if flags.multiLine then .lineStart flags.returns else .textStart

/-- The anchor that a dollar sign stands for. -/
def Flags.stop (flags : Flags) : Anchor :=
  if flags.multiLine then .lineEnd flags.returns else .textEnd

/-- In verbose mode, the text without the blanks and comments at its start. -/
def Flags.skip (flags : Flags) (s : List Char) : List Char :=
  if flags.verbose then go s.length s else s
where
  go : Nat → List Char → List Char
    | 0, s => s
    | fuel + 1, s =>
      match s.dropWhile Text.isBlank with
      | '#' :: rest => go fuel (rest.dropWhile (· != '\n'))
      | rest => rest

/-- The number written in hexadecimal at the start of the text, either `width` digits or any number
of them between braces. -/
def readHex (width : Nat) (s : List Char) : Option (Char × List Char) := do
  let (digits, rest) ←
    match s with
    | '\x7b' :: rest =>
      match rest.dropWhile (· != '\x7d') with
      | _ :: after => some (rest.takeWhile (· != '\x7d'), after)
      | [] => none
    | s => if s.length < width then none else some (s.take width, s.drop width)
  if digits.isEmpty then none
  else
    let values ← digits.mapM Json.hexDigit?
    let n := values.foldl (fun n d => 16 * n + d) 0
    if h : n.isValidChar then return (Char.ofNatAux n h, rest) else none

/-- The meaning of an escape outside and inside of classes. -/
inductive Escape where
  | char (c : Char)
  | set (set : CharSet)
  | anchor (a : Anchor)

/-- The anchor at a word edge, whose letter was read already; its kind may follow between braces.
What follows between braces and begins with a digit is a repetition. -/
def readWordEdge (s : List Char) : Option (Anchor × List Char) :=
  match s with
  | '\x7b' :: rest =>
    let isLetter (c : Char) : Bool := ('a' ≤ c ∧ c ≤ 'z') ∨ ('A' ≤ c ∧ c ≤ 'Z') ∨ c = '-'
    if !rest.head?.any isLetter then some (.wordEdge false, s)
    else
      match rest.dropWhile isLetter with
      | '\x7d' :: after =>
        match String.ofList (rest.takeWhile isLetter) with
        | "start" => some (.wordStart, after)
        | "end" => some (.wordEnd, after)
        | "start-half" => some (.noWordBefore, after)
        | "end-half" => some (.noWordAfter, after)
        | _ => none
      | _ => none
  | s => some (.wordEdge false, s)

/-- The escape whose backslash stands before the text. -/
def readEscape (s : List Char) : Option (Escape × List Char) :=
  match s with
  | [] => none
  | c :: rest =>
    match c with
    | 'd' => some (.set .digit, rest)
    | 'D' => some (.set (.compl .digit), rest)
    | 'w' => some (.set .word, rest)
    | 'W' => some (.set (.compl .word), rest)
    | 's' => some (.set .blank, rest)
    | 'S' => some (.set (.compl .blank), rest)
    | 'n' => some (.char '\n', rest)
    | 't' => some (.char '\t', rest)
    | 'r' => some (.char '\r', rest)
    | 'a' => some (.char '\x07', rest)
    | 'f' => some (.char '\x0c', rest)
    | 'v' => some (.char '\x0b', rest)
    | 'x' => (readHex 2 rest).map fun (c, rest) => (.char c, rest)
    | 'u' => (readHex 4 rest).map fun (c, rest) => (.char c, rest)
    | 'U' => (readHex 8 rest).map fun (c, rest) => (.char c, rest)
    | 'A' => some (.anchor .textStart, rest)
    | 'z' => some (.anchor .textEnd, rest)
    | 'b' => (readWordEdge rest).map fun (a, rest) => (.anchor a, rest)
    | 'B' => some (.anchor (.wordEdge true), rest)
    | '<' => some (.anchor .wordStart, rest)
    | '>' => some (.anchor .wordEnd, rest)
    | c => if c.toNat < 128 ∧ ¬ c.isAlphanum then some (.char c, rest) else none

/-- The classes that have a name between colons. -/
def namedSet? (name : String) : Option CharSet :=
  let upper := CharSet.range 'A' 'Z'
  let lower := CharSet.range 'a' 'z'
  let figure := CharSet.range '0' '9'
  let alpha := CharSet.union upper lower
  match name with
  | "alnum" => some (.union alpha figure)
  | "alpha" => some alpha
  | "ascii" => some (.range '\x00' '\x7f')
  | "blank" => some (.ofString "\t ")
  | "cntrl" => some (.union (.range '\x00' '\x1f') (.single '\x7f'))
  | "digit" => some figure
  | "graph" => some (.range '!' '~')
  | "lower" => some lower
  | "print" => some (.range ' ' '~')
  | "punct" =>
    some (.union (.union (.range '!' '/') (.range ':' '@'))
      (.union (.range '[' '\x60') (.range '{' '~')))
  | "space" => some (.ofString "\t\n\x0b\x0c\r ")
  | "upper" => some upper
  | "word" => some (.union (.union alpha figure) (.single '_'))
  | "xdigit" => some (.union figure (.union (.range 'A' 'F') (.range 'a' 'f')))
  | _ => none

/-- The class with a name at the start of the text, such as `[:alpha:]`, whose first bracket was
read already. -/
def readNamed (s : List Char) : Option (CharSet × List Char) :=
  match s with
  | ':' :: rest =>
    let (negated, rest) := match rest with
      | '^' :: rest => (true, rest)
      | rest => (false, rest)
    match rest.dropWhile (· != ':') with
    | ':' :: ']' :: after =>
      (namedSet? (String.ofList (rest.takeWhile (· != ':')))).map fun set =>
        (if negated then .compl set else set, after)
    | _ => none
  | _ => none

/-- An element of a class: a character, which may begin a range, or a set. -/
def readElement (s : List Char) : Option ((Char ⊕ CharSet) × List Char) :=
  match s with
  | [] => none
  | '\\' :: rest => do
    let (escape, rest) ← readEscape rest
    match escape with
    | .char c => some (.inl c, rest)
    | .set set => some (.inr set, rest)
    | .anchor _ => none
  | c :: rest => some (.inl c, rest)

/-- A character, a range or a set at the start of the inside of a class. -/
def readRange (flags : Flags) (s : List Char) : Option (CharSet × List Char) := do
  let (first, rest) ← readElement s
  let rest := flags.skip rest
  match rest with
  | '-' :: after =>
    match flags.skip after with
    | [] => none
    | ']' :: _ =>
      match first with
      | .inl c => some (.single c, rest)
      | .inr set => some (set, rest)
    | '-' :: _ =>
      match first with
      | .inl c => some (.single c, rest)
      | .inr set => some (set, rest)
    | after => do
      let (last, after) ← readElement after
      match first, last with
      | .inl low, .inl high => if low ≤ high then some (.range low high, after) else none
      | _, _ => none
  | rest =>
    match first with
    | .inl c => some (.single c, rest)
    | .inr set => some (set, rest)

/-- An operation between two sets. -/
inductive SetOperation where
  | meet
  | difference
  | symmetricDifference

/-- The set that an operation makes of two sets. -/
def SetOperation.apply (op : SetOperation) (a b : CharSet) : CharSet :=
  match op with
  | meet => .inter a b
  | difference => .inter a (.compl b)
  | symmetricDifference => .union (.inter a (.compl b)) (.inter b (.compl a))

/-- The set on the left of an operation that waits for its right side. -/
def finishOperation (pending : Option (CharSet × SetOperation)) (set : CharSet) : CharSet :=
  match pending with
  | none => set
  | some (left, op) => op.apply left set

mutual

/-- A class whose opening bracket was read already, up to and including its closing bracket. -/
def readClass (flags : Flags) : (fuel : Nat) → List Char → Option (CharSet × List Char)
  | 0, _ => none
  | fuel + 1, s =>
    let s := flags.skip s
    let (negated, s) := match s with
      | '^' :: rest => (true, flags.skip rest)
      | s => (false, s)
    let dashes := s.takeWhile (· == '-')
    let s := flags.skip (s.drop dashes.length)
    let start := if dashes.isEmpty then CharSet.empty else .single '-'
    let (start, s) := match dashes, s with
      | [], ']' :: rest => (CharSet.single ']', rest)
      | _, s => (start, s)
    do
      let (set, rest) ← readClassItems flags fuel none start s
      let set := flags.fold set
      return (if negated then .compl set else set, rest)

/-- The items of a class after those of `set`, with an operation that may be `pending`. -/
def readClassItems (flags : Flags) :
    (fuel : Nat) → Option (CharSet × SetOperation) → CharSet → List Char →
      Option (CharSet × List Char)
  | 0, _, _, _ => none
  | fuel + 1, pending, set, s =>
    match flags.skip s with
    | [] => none
    | ']' :: rest => some (finishOperation pending set, rest)
    | '&' :: '&' :: rest =>
      readClassItems flags fuel (some (finishOperation pending set, .meet)) .empty rest
    | '-' :: '-' :: rest =>
      readClassItems flags fuel (some (finishOperation pending set, .difference)) .empty rest
    | '~' :: '~' :: rest =>
      readClassItems flags fuel (some (finishOperation pending set, .symmetricDifference)) .empty
        rest
    | '[' :: rest =>
      match readNamed rest with
      | some (inner, rest) => readClassItems flags fuel pending (.union set inner) rest
      | none => do
        let (inner, rest) ← readClass flags fuel rest
        readClassItems flags fuel pending (.union set inner) rest
    | s => do
      let (item, rest) ← readRange flags s
      readClassItems flags fuel pending (.union set item) rest

end

/-- The bounds of a counted repetition whose opening brace was read already. -/
def readCount (s : List Char) : Option (Nat × Option Nat × List Char) := do
  let number (s : List Char) : Option (Nat × List Char) :=
    let s := s.dropWhile Text.isBlank
    let digits := s.takeWhile Char.isDigit
    if digits.isEmpty then none
    else
      let n := Decimal.natOfDigits digits
      if n < 0x100000000 then
        some (n, (s.dropWhile Char.isDigit).dropWhile Text.isBlank)
      else none
  let (least, rest) ← number s
  match rest with
  | '\x7d' :: rest => return (least, some least, rest)
  | ',' :: rest =>
    match rest.dropWhile Text.isBlank with
    | '\x7d' :: rest => return (least, none, rest)
    | rest =>
      let (most, rest) ← number rest
      match rest with
      | '\x7d' :: rest => if least ≤ most then return (least, some most, rest) else none
      | _ => none
  | _ => none

/-- The flags after the letters `s`, which are switched off after a dash. -/
def switchFlags (flags : Flags) (on : Bool) : List Char → Option Flags
  | [] => some flags
  | ['-'] => none
  | '-' :: rest => if on then switchFlags flags false rest else none
  | c :: rest =>
    match c with
    | 'i' => switchFlags { flags with ignoreCase := on } on rest
    | 'm' => switchFlags { flags with multiLine := on } on rest
    | 's' => switchFlags { flags with dotAll := on } on rest
    | 'x' => switchFlags { flags with verbose := on } on rest
    | 'R' => switchFlags { flags with returns := on } on rest
    | 'u' => if on then switchFlags flags on rest else none
    | 'U' => switchFlags flags on rest
    | _ => none

/-- The flags after the letters `s`, of which none may occur twice. -/
def setFlags (flags : Flags) (s : List Char) : Option Flags :=
  if s.Nodup then switchFlags flags true s else none

/-- Whether the text is a name that a group can carry. -/
def isGroupName (name : List Char) : Bool :=
  match name with
  | [] => false
  | c :: rest => (Text.isAlphabetic c || c == '_') &&
      rest.all fun c => Text.isAlphanumeric c || c == '_' || c == '.' || c == '[' || c == ']'

/-- What the opening of a group says: flags from here on, or a group with its own flags. -/
inductive Opening where
  | flags (flags : Flags)
  | group (flags : Flags) (name : Option (List Char))

/-- The opening of a group whose parenthesis was read already. -/
def readOpening (flags : Flags) (s : List Char) : Option (Opening × List Char) :=
  let named (rest : List Char) : Option (Opening × List Char) :=
    match rest.dropWhile (· != '>') with
    | _ :: after =>
      let name := rest.takeWhile (· != '>')
      if isGroupName name then some (.group flags (some name), after) else none
    | [] => none
  match s with
  | '?' :: 'P' :: '<' :: rest => named rest
  | '?' :: '<' :: rest => named rest
  | '?' :: rest =>
    let isLetter (c : Char) : Bool := c != ':' && c != ')'
    let letters := rest.takeWhile isLetter
    match rest.dropWhile isLetter with
    | ':' :: after => (setFlags flags letters).map fun flags => (.group flags none, after)
    | ')' :: after =>
      if letters.isEmpty then none
      else (setFlags flags letters).map fun flags => (.flags flags, after)
    | _ => none
  | s => some (.group flags none, s)

/-- The pieces in the order in which they were pushed. A flag setting is a piece without a
pattern. -/
def sequence (pieces : List (Option Pattern)) : Pattern :=
  pieces.foldl (fun later piece =>
    match piece, later with
    | none, later => later
    | some p, .empty => p
    | some p, later => .seq p later) .empty

/-- The pieces after the last one is repeated; nothing can be repeated that is not there. -/
def repeatLast (least : Nat) (most : Option Nat) :
    List (Option Pattern) → Option (List (Option Pattern))
  | some p :: rest => some (some (.times p least most) :: rest)
  | _ => none

/-- The text without the sign that asks for few repetitions. -/
def skipLazy : List Char → List Char
  | '?' :: rest => rest
  | s => s

/-- A piece of a written pattern that was read: its meaning, the names of the groups up to its end,
and the text after it. -/
structure Found where
  pattern : Pattern
  names : List (List Char)
  rest : List Char

/-- Reads a sequence of alternatives up to the end of the text or, inside a group, up to its closing
parenthesis, which is left. The alternatives before are in `before`, the pieces of the current one
are in `pieces`, last first. No name in `names` can name another group. -/
def readFrom : (fuel : Nat) → (inGroup : Bool) → Flags → (names : List (List Char)) →
    (before : Option Pattern) → (pieces : List (Option Pattern)) → List Char → Option Found
  | 0, _, _, _, _, _, _ => none
  | fuel + 1, inGroup, flags, names, before, pieces, s =>
    let current := sequence pieces
    let joined := match before with
      | none => current
      | some earlier => .alt earlier current
    let push (piece : Pattern) (rest : List Char) :=
      readFrom fuel inGroup flags names before (some piece :: pieces) rest
    match flags.skip s with
    | [] => if inGroup then none else some ⟨joined, names, []⟩
    | ')' :: rest => if inGroup then some ⟨joined, names, ')' :: rest⟩ else none
    | '|' :: rest => readFrom fuel inGroup flags names (some joined) [] rest
    | '*' :: rest => do
      let pieces ← repeatLast 0 none pieces
      readFrom fuel inGroup flags names before pieces (skipLazy rest)
    | '+' :: rest => do
      let pieces ← repeatLast 1 none pieces
      readFrom fuel inGroup flags names before pieces (skipLazy rest)
    | '?' :: rest => do
      let pieces ← repeatLast 0 (some 1) pieces
      readFrom fuel inGroup flags names before pieces (skipLazy rest)
    | '\x7b' :: rest => do
      let (least, most, rest) ← readCount rest
      let pieces ← repeatLast least most pieces
      readFrom fuel inGroup flags names before pieces (skipLazy rest)
    | '(' :: rest => do
      let (opening, rest) ← readOpening flags rest
      match opening with
      | .flags flags => readFrom fuel inGroup flags names before (none :: pieces) rest
      | .group inner name =>
        if name.any names.contains then none
        else
          let group ← readFrom fuel true inner (name.toList ++ names) none [] rest
          match group.rest with
          | ')' :: rest =>
            readFrom fuel inGroup flags group.names before (some group.pattern :: pieces) rest
          | _ => none
    | '[' :: rest => do
      let (set, rest) ← readClass flags fuel rest
      push (.chars set) rest
    | '.' :: rest => push (.chars flags.dot) rest
    | '^' :: rest => push (.anchor flags.start) rest
    | '$' :: rest => push (.anchor flags.stop) rest
    | '\\' :: rest => do
      let (escape, rest) ← readEscape rest
      match escape with
      | .char c => push (.chars (flags.fold (.single c))) rest
      | .set set => push (.chars set) rest
      | .anchor a => push (.anchor a) rest
    | c :: rest => push (.chars (flags.fold (.single c))) rest

/-- The pattern that a text denotes. -/
def read? (text : String) : Option Pattern := do
  let s := text.toList
  let found ← readFrom (2 * s.length + 2) false {} [] none [] s
  return found.pattern

end Rulebook.Pattern
