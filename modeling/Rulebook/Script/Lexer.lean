import Rulebook.Script.Token
import Rulebook.Decimal.Reading
import Rulebook.Text.Class

/-!
# Cutting a script into tokens

Every step takes at least one character away, so the number of characters bounds the steps. Inside
an interpolation the number of open braces is counted, and the brace that closes the interpolation
leads back into the template literal.
-/

namespace Rulebook.Script.Lexer

/-- A character that a name can begin with. -/
def isNameStart (c : Char) : Bool := c.isAlpha || c == '_'

/-- A character of a name. -/
def isNamePart (c : Char) : Bool := c.isAlphanum || c == '_'

/-- Whether a word is a proper name: a letter comes before the first digit. -/
def isProperName (word : List Char) : Bool :=
  match word.dropWhile (· == '_') with
  | c :: _ => c.isAlpha
  | [] => false

/-- A hexadecimal digit. -/
def isHexDigit (c : Char) : Bool :=
  c.isDigit || ('a' ≤ c && c ≤ 'f') || ('A' ≤ c && c ≤ 'F')

/-- The value of a hexadecimal digit. -/
def hexValue (c : Char) : Nat :=
  if c.isDigit then c.toNat - '0'.toNat
  else if c.toNat < 'a'.toNat then c.toNat - 'A'.toNat + 10
  else c.toNat - 'a'.toNat + 10

/-- The value of digits to a base. -/
def valueOf (base : Nat) (digits : List Char) : Nat :=
  digits.foldl (fun n c => base * n + hexValue c) 0

/-! ### Numbers -/

/-- The token of an integer text: a double when 64 bits do not hold the integer. -/
def integerToken (negative : Bool) (digits : List Char) : Token :=
  let n : Int := Decimal.natOfDigits digits
  let n := if negative then -n else n
  if -0x8000000000000000 ≤ n ∧ n < 0x8000000000000000 then .int (Int64.ofInt n) else .float (Decimal.ofInt n)

/-- The digits at the start of a text, without the separators between them, and what follows. -/
def splitDigits (isDigit : Char → Bool) (s : List Char) : List Char × List Char :=
  (((s.takeWhile fun c => isDigit c || c == '_').filter (· ≠ '_')),
    s.dropWhile fun c => isDigit c || c == '_')

/-- The fraction at the start of what follows the whole digits, if there is one. A point belongs to
the number unless a name, another point or a separator follows. -/
def splitFraction (s : List Char) : Option (List Char) × List Char :=
  match s with
  | '.' :: rest =>
    match rest with
    | [] => (none, s)
    | c :: _ =>
      if c.isDigit then
        let (digits, rest) := splitDigits Char.isDigit rest
        (some digits, rest)
      else if c == '_' || c == '.' || isNameStart c then (none, s)
      else (some ['0'], rest)
  | _ => (none, s)

/-- The exponent at the start of what follows the fraction, if there is one. -/
def splitExponent (s : List Char) : Option Int × List Char :=
  match s with
  | 'e' :: sign :: rest =>
    if sign.isDigit then
      let (digits, rest) := splitDigits Char.isDigit (sign :: rest)
      (some (Decimal.natOfDigits digits), rest)
    else if sign == '+' || sign == '-' then
      let (digits, rest) := splitDigits Char.isDigit rest
      let e : Int := Decimal.natOfDigits digits
      (some (if sign == '-' then -e else e), rest)
    else (none, s)
  | _ => (none, s)

/-- The number to a base other than ten. -/
def basedNumber (negative : Bool) (base : Nat) (digits : List Char) : Option Token :=
  let n := valueOf base digits
  if digits.isEmpty || 0x10000000000000000 ≤ n then none
  else
    let n : Int := n
    some (.int (Int64.ofInt (if negative then -n else n)))

/-- The number at the start of a text that starts with a digit, and what follows it. A second point
with a digit after it makes the number malformed. -/
def number (negative : Bool) (s : List Char) : Option (Token × List Char) :=
  match s with
  | '0' :: 'x' :: rest => based 16 isHexDigit rest
  | '0' :: 'X' :: rest => based 16 isHexDigit rest
  | '0' :: 'o' :: rest => based 8 (fun c => '0' ≤ c && c ≤ '7') rest
  | '0' :: 'O' :: rest => based 8 (fun c => '0' ≤ c && c ≤ '7') rest
  | '0' :: 'b' :: rest => based 2 (fun c => c == '0' || c == '1') rest
  | '0' :: 'B' :: rest => based 2 (fun c => c == '0' || c == '1') rest
  | s =>
    let (whole, rest) := splitDigits Char.isDigit s
    let (fraction, rest) := splitFraction rest
    let (exponent, rest) := splitExponent rest
    match rest with
    | '.' :: c :: _ =>
      if c.isDigit && (fraction.isSome || exponent.isSome) then none
      else some (token whole fraction exponent, rest)
    | _ => some (token whole fraction exponent, rest)
where
  based (base : Nat) (isDigit : Char → Bool) (s : List Char) : Option (Token × List Char) :=
    let (digits, rest) := splitDigits isDigit s
    (basedNumber negative base digits).map (·, rest)
  token (whole : List Char) (fraction : Option (List Char)) (exponent : Option Int) : Token :=
    if fraction.isNone && exponent.isNone then integerToken negative whole
    else
      let places := fraction.getD []
      .float (Decimal.nearestSigned negative (Decimal.natOfDigits (whole ++ places))
        (exponent.getD 0 - places.length))

/-! ### Texts -/

/-- The character with a code point, if there is one. -/
def charOf? (n : Nat) : Option Char := if n.isValidChar then some (Char.ofNat n) else none

/-- The character written by `count` hexadecimal digits at the start of a text, and what follows. -/
def coded (count : Nat) (s : List Char) : Option (Char × List Char) :=
  let digits := s.take count
  if digits.length = count && digits.all isHexDigit then
    (charOf? (valueOf 16 digits)).map (·, s.drop count)
  else none

/-- The character that an escape stands for, given what follows the backslash, and what follows the
escape. The closing quote of the literal can be escaped. -/
def escaped (quote : Char) (s : List Char) : Option (Char × List Char) :=
  match s with
  | '\\' :: rest => some ('\\', rest)
  | 't' :: rest => some ('\t', rest)
  | 'n' :: rest => some ('\n', rest)
  | 'r' :: rest => some ('\r', rest)
  | 'x' :: rest => coded 2 rest
  | 'u' :: rest => coded 4 rest
  | 'U' :: rest => coded 8 rest
  | c :: rest => if c = quote then some (c, rest) else none
  | [] => none

/-- The text of a literal, given what follows its opening quote, and what follows its closing quote.
The quote written twice stands for itself, and a backslash at the end of a line joins it with the
next one. -/
def literal (quote : Char) : (fuel : Nat) → List Char → Except SyntaxProblem (List Char × List Char)
  | 0, _ => .error .unterminatedText
  | _, [] => .error .unterminatedText
  | fuel + 1, c :: rest =>
    if c = '\\' then
      match rest with
      | '\n' :: rest => literal quote fuel (rest.dropWhile Text.isBlank)
      | rest =>
        match escaped quote rest with
        | some (c, rest) => do
          let (text, after) ← literal quote fuel rest
          return (c :: text, after)
        | none => .error .escape
    else if c = quote then
      match rest with
      | d :: after =>
        if d = quote then do
          let (text, after) ← literal quote fuel after
          return (quote :: text, after)
        else .ok ([], rest)
      | [] => .ok ([], rest)
    else if c = '\n' then .error .unterminatedText
    else do
      let (text, after) ← literal quote fuel rest
      return (c :: text, after)

/-- The text of a template literal up to an interpolation or to its end; whether an interpolation
follows, and what follows. -/
def templatePiece : List Char → Option (List Char × Bool × List Char)
  | [] => none
  | '\r' :: '\n' :: rest => (templatePiece rest).map fun (text, found) => ('\n' :: text, found)
  | '\x60' :: '\x60' :: rest =>
    (templatePiece rest).map fun (text, found) => ('\x60' :: text, found)
  | '\x60' :: rest => some ([], false, rest)
  | '$' :: '\x7b' :: rest => some ([], true, rest)
  | c :: rest => (templatePiece rest).map fun (text, found) => (c :: text, found)

/-- What follows a block comment, given what follows its opening; comments may be nested. -/
def afterComment : (depth : Nat) → List Char → List Char
  | depth, '/' :: '*' :: rest => afterComment (depth + 1) rest
  | 0, '*' :: '/' :: rest => rest
  | depth + 1, '*' :: '/' :: rest => afterComment depth rest
  | depth, _ :: rest => afterComment depth rest
  | _, [] => []

/-! ### Words and signs -/

/-- The token of a word. The word for the evaluation of texts is kept back unless the script
`evaluates`. -/
def wordToken (evaluates : Bool) (word : List Char) : Except SyntaxProblem Token :=
  let s := String.ofList word
  if Token.words.contains s then .ok (.word s)
  else if Token.betweenWords.contains s then .ok (.between s)
  else if s = "eval" && !evaluates then .error (.reserved s)
  else if Token.functionWords.contains s || Token.keptWords.contains s then .ok (.reserved s)
  else if s = "_" then .ok (.word s)
  else if isProperName word then .ok (.name s)
  else .error .name

/-- The sign at the start of a text. -/
def signToken (s : List Char) : Option (Token × Nat) :=
  let three := String.ofList (s.take 3)
  let two := String.ofList (s.take 2)
  let one := String.ofList (s.take 1)
  if Token.keptSigns.contains three then some (.reserved three, 3)
  else if Token.longSigns.contains three then some (.sign three, 3)
  else if three = "!in" && !((s.drop 3).head?.any isNamePart) then some (.sign "!in", 3)
  else if Token.keptSigns.contains two then some (.reserved two, 2)
  else if Token.pairSigns.contains two then some (.sign two, 2)
  else if Token.singleSigns.contains one then some (.sign one, 1)
  else if Token.keptSigns.contains one then some (.reserved one, 1)
  else none

/-! ### Scripts -/

/-- What the lexer remembers between two tokens. -/
structure Progress where
  position : Position := .start
  /-- For every open interpolation, the innermost first, the number of braces opened inside it. -/
  braces : List Nat := []
  /-- Whether an operand may come next. -/
  operand : Bool := true

/-- The braces after a sign; `none` if the sign closes an interpolation. -/
def bracesAfter (braces : List Nat) (token : Token) : Option (List Nat) :=
  match token, braces with
  | .sign s, depth :: rest =>
    if s = "\x7b" || s = "#\x7b" then some ((depth + 1) :: rest)
    else if s = "\x7d" then if depth = 0 then none else some ((depth - 1) :: rest)
    else some braces
  | _, _ => some braces

/-- The next token of a text that starts with neither blanks nor comments, and what follows it. -/
def token (evaluates operand : Bool) (s : List Char) : Except SyntaxProblem (Token × List Char) :=
  match s with
  | '"' :: rest => do
    let (text, after) ← literal '"' rest.length rest
    return (.text (String.ofList text), after)
  | '\x27' :: rest => do
    let (text, after) ← literal '\x27' rest.length rest
    match text with
    | [c] => return (.char c, after)
    | _ => throw .character
  | '\x60' :: rest =>
    let rest := match rest with
      | '\n' :: rest => rest
      | '\r' :: '\n' :: rest => rest
      | rest => rest
    match templatePiece rest with
    | some (text, more, after) => .ok (.piece (String.ofList text) more, after)
    | none => .error .unterminatedText
  | '-' :: c :: rest =>
    if operand && c.isDigit then
      match number true (c :: rest) with
      | some found => .ok found
      | none => .error .number
    else sign s
  | c :: _ =>
    if c.isDigit then
      match number false s with
      | some found => .ok found
      | none => .error .number
    else if isNameStart c then do
      return (← wordToken evaluates (s.takeWhile isNamePart), s.dropWhile isNamePart)
    else sign s
  | [] => .error .sign
where
  sign (s : List Char) : Except SyntaxProblem (Token × List Char) :=
    match signToken s with
    | some (token, length) => .ok (token, s.drop length)
    | none => .error .sign

/-- The tokens of a text with their places. -/
def scan (evaluates : Bool) : (fuel : Nat) → Progress → List Char →
    Except SyntaxError (List (Token × Position))
  | 0, _, _ => .ok []
  | _, _, [] => .ok []
  | fuel + 1, progress, s@(c :: rest) =>
    let skipTo (after : List Char) :=
      scan evaluates fuel
        { progress with position := progress.position.afterAll (s.take (s.length - after.length)) }
        after
    if Text.isBlank c then skipTo rest
    else if s.take 2 = ['/', '/'] then skipTo (s.dropWhile (· ≠ '\n'))
    else if s.take 2 = ['/', '*'] then skipTo (afterComment 0 (s.drop 2))
    else
      match token evaluates progress.operand s with
      | .error problem => .error ⟨problem, some progress.position⟩
      | .ok (token, after) =>
        let position := progress.position.afterAll (s.take (s.length - after.length))
        let braces := match token with
          | .piece _ true => some (0 :: progress.braces)
          | token => bracesAfter progress.braces token
        match braces with
        | some braces => do
          let rest ← scan evaluates fuel { position, braces, operand := token.opensOperand } after
          return (token, progress.position) :: rest
        | none =>
          match templatePiece after with
          | none => .error ⟨.unterminatedText, some position⟩
          | some (text, more, beyond) => do
            let outer := progress.braces.drop 1
            let rest ← scan evaluates fuel
              { position := position.afterAll (after.take (after.length - beyond.length))
                braces := if more then 0 :: outer else outer
                operand := more } beyond
            return (token, progress.position) ::
              (.piece (String.ofList text) more, position) :: rest

/-- The tokens of a script. -/
def tokens (evaluates : Bool) (script : String) : Except SyntaxError (List (Token × Position)) :=
  let s := script.toList
  scan evaluates (s.length + 1) {} s

end Rulebook.Script.Lexer
