import Rulebook.Text.Class
import Rulebook.Text.Case

/-!
# Patterns

Regular expressions over characters, with anchors. A pattern is found in a text when some stretch
of the text matches it; which stretch, and which way of matching it, is never asked.
-/

namespace Rulebook

/-- A set of characters. -/
inductive CharSet where
  /-- The characters from `low` to `high`. -/
  | range (low high : Char)
  | digit
  | word
  | blank
  | empty
  | union (a b : CharSet)
  | inter (a b : CharSet)
  /-- The characters outside a set. -/
  | compl (a : CharSet)
  /-- The characters that differ from one of a set at most in case. -/
  | anyCase (a : CharSet)

namespace CharSet

/-- Membership in a set of characters. -/
def mem : CharSet → Char → Bool
  | range low high, c => low ≤ c && c ≤ high
  | digit, c => Text.isDecimalDigit c
  | word, c => Text.isWordChar c
  | blank, c => Text.isBlank c
  | empty, _ => false
  | union a b, c => a.mem c || b.mem c
  | inter a b, c => a.mem c && b.mem c
  | compl a, c => !a.mem c
  | anyCase a, c => a.mem c || a.mem (Text.lowerChar c) || a.mem (Text.upperChar c)

/-- The set of one character. -/
def single (c : Char) : CharSet := range c c

/-- The characters of a text. -/
def ofString (s : String) : CharSet := s.toList.foldr (fun c set => union (single c) set) empty

end CharSet

/-- A condition on a place between two characters, which are missing at the ends of the text. -/
inductive Anchor where
  | textStart
  | textEnd
  /-- At the start of a line; with `returns`, a carriage return ends a line too, alone or before a
  line feed. -/
  | lineStart (returns : Bool)
  | lineEnd (returns : Bool)
  /-- Between a word character and another character, or the opposite. -/
  | wordEdge (negated : Bool)
  | wordStart
  | wordEnd
  | noWordBefore
  | noWordAfter
  deriving Repr, DecidableEq

namespace Anchor

/-- Whether the anchor holds between `before` and `after`. -/
def holds (anchor : Anchor) (before after : Option Char) : Bool :=
  let wordBefore := before.any Text.isWordChar
  let wordAfter := after.any Text.isWordChar
  match anchor with
  | textStart => before.isNone
  | textEnd => after.isNone
  | lineStart returns => before.isNone || before == some '\n' ||
      returns && before == some '\r' && after != some '\n'
  | lineEnd returns => after.isNone ||
      (if returns then after == some '\r' || after == some '\n' && before != some '\r'
        else after == some '\n')
  | wordEdge negated => (wordBefore != wordAfter) != negated
  | wordStart => !wordBefore && wordAfter
  | wordEnd => wordBefore && !wordAfter
  | noWordBefore => !wordBefore
  | noWordAfter => !wordAfter

end Anchor

/-- A regular expression. -/
inductive Pattern where
  | empty
  | chars (set : CharSet)
  | anchor (a : Anchor)
  | seq (a b : Pattern)
  | alt (a b : Pattern)
  /-- At least `least` and, if there is a bound, at most `most` times in a row. -/
  | times (a : Pattern) (least : Nat) (most : Option Nat)

end Rulebook
