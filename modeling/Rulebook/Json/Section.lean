import Rulebook.Json.Lexeme

/-!
# One member of a JSON text, as written

`memberText` finds a member of the object that a text denotes and returns the text of its value
unchanged. The other members only have to be well formed: their numbers may have any size and
brackets may be nested to any depth.
-/

namespace Rulebook.Json

/-- What follows the string literal whose inside starts the text. -/
def skipString (s : List Char) : Option (List Char) := do
  let (inside, after) ← splitString s
  if isPlausible inside then some after else none

mutual

/-- What follows the well-formed value at the start of a text. -/
def skipValue : (fuel : Nat) → List Char → Option (List Char)
  | 0, _ => none
  | fuel + 1, s =>
    match skipSpace s with
    | 'n' :: 'u' :: 'l' :: 'l' :: rest => some rest
    | 't' :: 'r' :: 'u' :: 'e' :: rest => some rest
    | 'f' :: 'a' :: 'l' :: 's' :: 'e' :: rest => some rest
    | '"' :: rest => skipString rest
    | '[' :: rest =>
      match skipSpace rest with
      | ']' :: after => some after
      | rest => skipItems fuel rest
    | '\x7b' :: rest =>
      match skipSpace rest with
      | '\x7d' :: after => some after
      | rest => skipMembers fuel rest
    | s => (splitNumeral false s).map (·.2)

/-- What follows the items and their closing bracket. -/
def skipItems : (fuel : Nat) → List Char → Option (List Char)
  | 0, _ => none
  | fuel + 1, s => do
    let s ← skipValue fuel s
    match skipSpace s with
    | ',' :: rest => skipItems fuel rest
    | ']' :: after => some after
    | _ => none

/-- What follows the members and their closing brace. -/
def skipMembers : (fuel : Nat) → List Char → Option (List Char)
  | 0, _ => none
  | fuel + 1, s =>
    match skipSpace s with
    | '"' :: rest => do
      let s ← skipString rest
      match skipSpace s with
      | ':' :: rest =>
        let s ← skipValue fuel rest
        match skipSpace s with
        | ',' :: rest => skipMembers fuel rest
        | '\x7d' :: after => some after
        | _ => none
      | _ => none
    | _ => none

end

/-- What follows the value at the start of a text, with fuel for every text. -/
def afterValue (s : List Char) : Option (List Char) := skipValue (2 * s.length + 2) s

/-- A value that may be missing: `null` counts as none, any other value is returned as written. -/
def optionalText (s : List Char) : Option (Option String × List Char) :=
  match skipSpace s with
  | 'n' :: rest =>
    match rest with
    | 'u' :: 'l' :: 'l' :: after => some (none, after)
    | _ => none
  | s => do
    let after ← afterValue s
    return (some (String.ofList (s.take (s.length - after.length))), after)

/-- What became of the wanted member so far: not seen, or seen with a value that may be missing. -/
abbrev Found := Option (Option String)

/-- Goes through the members of an object up to its closing brace, looking for `wanted`, which may
occur once. -/
def findMember (wanted : String) : (fuel : Nat) → Found → List Char → Option (Found × List Char)
  | 0, _, _ => none
  | fuel + 1, found, s =>
    match skipSpace s with
    | '"' :: rest => do
      let (inside, s) ← splitString rest
      let name ← decode inside
      match skipSpace s with
      | ':' :: rest =>
        let (found, s) ←
          if String.ofList name = wanted then
            if found.isSome then none
            else (optionalText rest).map fun (value, s) => (some value, s)
          else (afterValue rest).map fun s => (found, s)
        match skipSpace s with
        | ',' :: rest => findMember wanted fuel found rest
        | '\x7d' :: after => some (found, after)
        | _ => none
      | _ => none
    | _ => none

/-- The text of the value under `wanted` in the object that the text denotes; `some none` when the
member is absent or `null`, and `none` when the text is not well formed or names the member twice.
An array of at most one item stands for an object with that member alone. -/
def memberText (wanted text : String) : Option (Option String) := do
  let s := text.toList
  let (found, rest) ←
    match skipSpace s with
    | '\x7b' :: rest =>
      match skipSpace rest with
      | '\x7d' :: after => some (none, after)
      | rest =>
        (findMember wanted (rest.length + 1) none rest).map fun (found, s) => (found.join, s)
    | '[' :: rest =>
      match skipSpace rest with
      | ']' :: after => some (none, after)
      | rest => do
        let (value, s) ← optionalText rest
        match skipSpace s with
        | ']' :: after => some (value, after)
        | _ => none
    | _ => none
  if (skipSpace rest).isEmpty then return found else none

end Rulebook.Json
