/-!
# Positions in a script

Lines and columns are counted from one.
-/

namespace Rulebook.Script

/-- A place in a script text. -/
structure Position where
  line : Nat
  column : Nat
  deriving Repr, DecidableEq, Inhabited

namespace Position

/-- The place of the first character. -/
def start : Position := ⟨1, 1⟩

/-- The place after a character. -/
def after (position : Position) (c : Char) : Position :=
  if c = '\n' then ⟨position.line + 1, 1⟩ else ⟨position.line, position.column + 1⟩

/-- The place after some characters. -/
def afterAll (position : Position) (cs : List Char) : Position := cs.foldl after position

/-- The place in words. -/
def text (position : Position) : String :=
  "line " ++ toString position.line ++ ", position " ++ toString position.column

end Position
end Rulebook.Script
