/-!
# Text patterns

Regular patterns, and whether a text has a place that matches one.

A pattern is read as a relation between places of a text: `reach` takes some places to those where a
match that begins at one of them may end.  A repetition is a relation done over and over; as a text
of `n` characters has `n + 1` places, a chain of more than `n` steps has one that stays where it is,
and no repetition needs to be followed further than `n + 1` times.
-/

namespace HexDiff

/-- A set of characters. -/
inductive CharSet where
  | range (first last : Char)
  | union (s t : CharSet)
  | inter (s t : CharSet)
  | compl (s : CharSet)
  deriving DecidableEq, Repr

namespace CharSet

/-- Whether a character is in a set. -/
def contains : CharSet → Char → Bool
  | range first last, c => first ≤ c && c ≤ last
  | union s t, c => s.contains c || t.contains c
  | inter s t, c => s.contains c && t.contains c
  | compl s, c => !s.contains c

/-- One character. -/
def single (c : Char) : CharSet :=
  range c c

/-- No character. -/
def empty : CharSet :=
  range '1' '0'

/-- The characters of either of some sets. -/
def ofList (sets : List CharSet) : CharSet :=
  sets.foldl union empty

end CharSet

/-- A pattern. -/
inductive Pattern where
  /-- The empty text. -/
  | nothing
  /-- A character of a set. -/
  | one (s : CharSet)
  | atStart
  | atEnd
  /-- A match of `p`, and right after it one of `q`. -/
  | followed (p q : Pattern)
  | either (p q : Pattern)
  /-- At least `least` matches in a row, and no more than `most`, if that is given. -/
  | repeated (p : Pattern) (least : Nat) (most : Option Nat)
  deriving DecidableEq, Repr

namespace Pattern

/-- The places that are reached from some by at most `n` steps: `seen`, and what is reached from
`fresh`, those of them from which no step has been tried yet. -/
def within (step : List Nat → List Nat) : Nat → List Nat → List Nat → List Nat
  | 0, seen, _ => seen
  | n + 1, seen, fresh =>
    let next := (step fresh).eraseDups.filter fun place => !seen.contains place
    if next.isEmpty then seen else within step n (seen ++ next) next

/-- The places where a match may end that begins at one of `places`. -/
def reach (text : List Char) : Pattern → List Nat → List Nat
  | nothing, places => places
  | one s, places => (places.filter fun i => text[i]?.any s.contains).map (· + 1)
  | atStart, places => places.filter (· = 0)
  | atEnd, places => places.filter (· = text.length)
  | followed p q, places => q.reach text (p.reach text places)
  | either p q, places => (p.reach text places ++ q.reach text places).eraseDups
  | repeated p least most, places =>
    let enough := text.length + 1
    let further := (most.map (· - least)).getD enough
    let begun := Nat.repeat (p.reach text) (min least enough) places
    within (p.reach text) (min further enough) begun begun

/-- Whether some place of a text matches a pattern. -/
def occursIn (p : Pattern) (text : List Char) : Bool :=
  !(p.reach text (List.range (text.length + 1))).isEmpty

end Pattern
end HexDiff
