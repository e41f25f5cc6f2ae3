import CodeAudit.Pattern.Basic

/-!
# Searching with patterns

A search takes the leftmost place where the pattern matches, and there the preferred way. Repeated
searches go on where the match before them ended, so matches do not overlap; the text before that
place still counts for word edges.
-/

namespace CodeAudit

/-- A match: the whole stretch, its groups, and the place where it ends. -/
structure Match where
  whole : Span
  groups : Pattern.Groups
  after : Cursor

namespace Match

/-- The stretch of a group, if the match went through it. -/
def group? (m : Match) (index : Nat) : Option Span :=
  (m.groups.lookup index).map fun (first, last) => Span.between first last

/-- The text of a group, empty if the match did not go through it. -/
def text (m : Match) (index : Nat) : List Char :=
  ((m.group? index).map Span.text).getD []

end Match

namespace Pattern

/-- The preferred match that begins at a place. -/
def matchAt? (p : Pattern) (c : Cursor) : Option Match :=
  p.run c [] fun c' groups => some ⟨Span.between c c', groups, c'⟩

/-- The leftmost match that begins among the places from here to the end of the text. -/
def searchFrom (p : Pattern) (previous : Option Char) (offset : Nat) : List Char → Option Match
  | [] => p.matchAt? ⟨previous, offset, []⟩
  | x :: rest =>
    (p.matchAt? ⟨previous, offset, x :: rest⟩).orElse fun _ =>
      searchFrom p (some x) (offset + x.utf8Size) rest

/-- The leftmost match in a text. -/
def find? (p : Pattern) (text : List Char) : Option Match :=
  p.searchFrom none 0 text

/-- Does the pattern match somewhere in the text? -/
def isIn (p : Pattern) (text : List Char) : Bool :=
  (p.find? text).isSome

/-- Successive matches from a place on, at most `fuel` of them. After an empty match the search
    goes on one character further. -/
def matchesFrom (p : Pattern) : Nat → Cursor → List Match
  | 0, _ => []
  | fuel + 1, c =>
    match p.searchFrom c.previous c.offset c.rest with
    | none => []
    | some m =>
      if m.whole.start < m.whole.stop then m :: matchesFrom p fuel m.after
      else
        match m.after.next? with
        | none => [m]
        | some c' => m :: matchesFrom p fuel c'

/-- All successive matches in a text. -/
def findAll (p : Pattern) (text : List Char) : List Match :=
  p.matchesFrom (text.length + 1) (Cursor.start text)

end Pattern

end CodeAudit
