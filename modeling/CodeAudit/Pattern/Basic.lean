import CodeAudit.Text.Bytes
import CodeAudit.Text.CharClass

/-!
# Patterns

A pattern describes texts by classes of characters, sequence, ordered choice and repetition. The
order of a choice matters: of two ways to match from the same place, the one that takes the earlier
branch wins, and a greedy repetition prefers one more round over stopping.

`Pattern.run` explores these ways in their order of preference. It is total by recursion on the
pattern; a repetition also counts down the characters that are left, and a round that reads
nothing ends it.
-/

namespace CodeAudit

open Text

/-- A description of texts. -/
inductive Pattern where
  /-- The empty text. -/
  | empty
  /-- One character of a class. -/
  | one (accepts : Char → Bool)
  /-- The start of the text. -/
  | textStart
  /-- The start of the text, or the place after a line feed. -/
  | lineStart
  /-- The end of the text. -/
  | textEnd
  /-- A place where a word begins or ends. -/
  | wordEdge
  /-- One pattern after the other. -/
  | seq (first second : Pattern)
  /-- The first pattern or, failing that, the second. -/
  | choice (first second : Pattern)
  /-- Any number of rounds, preferring more (`greedy`) or fewer. -/
  | repeated (greedy : Bool) (body : Pattern)
  /-- What the body matches is remembered under a number. -/
  | group (index : Nat) (body : Pattern)

/-- A place in a text: the character before it, its byte offset, and what follows. -/
structure Cursor where
  previous : Option Char
  offset : Nat
  rest : List Char

namespace Cursor

/-- The start of a text. -/
def start (text : List Char) : Cursor := ⟨none, 0, text⟩

/-- The place after the next character. -/
def next? (c : Cursor) : Option Cursor :=
  match c.rest with
  | [] => none
  | x :: rest => some ⟨some x, c.offset + x.utf8Size, rest⟩

/-- Is the place between a word character and something else? -/
def atWordEdge (c : Cursor) : Bool :=
  c.previous.any isWord != c.rest.head?.any isWord

end Cursor

/-- A stretch of a text, with its byte offsets. -/
structure Span where
  start : Nat
  stop : Nat
  text : List Char

/-- The stretch between two places of one text. -/
def Span.between (a b : Cursor) : Span :=
  ⟨a.offset, b.offset, a.rest.take (a.rest.length - b.rest.length)⟩

namespace Pattern

/-- The numbered stretches remembered so far, latest first, each by the places where it begins and
    ends. -/
abbrev Groups := List (Nat × Cursor × Cursor)

/-- Rounds of `step` from a place, at most one for each character of `fuel`, in order of preference.
    A round that reads nothing is not taken. -/
def rounds {α : Type} (step : Cursor → Groups → (Cursor → Groups → Option α) → Option α)
    (greedy : Bool) : List Char → Cursor → Groups → (Cursor → Groups → Option α) → Option α
  | [], c, g, k => k c g
  | _ :: fuel, c, g, k =>
    let more : Unit → Option α := fun _ =>
      step c g fun c' g' =>
        if c'.offset = c.offset then none else rounds step greedy fuel c' g' k
    if greedy then (more ()).orElse fun _ => k c g else (k c g).orElse more

/-- The first way, in order of preference, to match from a place and then to satisfy `k`. -/
def run {α : Type} : Pattern → Cursor → Groups → (Cursor → Groups → Option α) → Option α
  | empty, c, g, k => k c g
  | one accepts, c, g, k =>
    match c.rest with
    | [] => none
    | x :: rest =>
      if accepts x then k ⟨some x, c.offset + x.utf8Size, rest⟩ g else none
  | textStart, c, g, k => if c.previous.isNone then k c g else none
  | lineStart, c, g, k => if c.previous.all (· == '\n') then k c g else none
  | textEnd, c, g, k => if c.rest.isEmpty then k c g else none
  | wordEdge, c, g, k => if c.atWordEdge then k c g else none
  | seq first second, c, g, k => first.run c g fun c g => second.run c g k
  | choice first second, c, g, k => (first.run c g k).orElse fun _ => second.run c g k
  | repeated greedy body, c, g, k => rounds body.run greedy c.rest c g k
  | group index body, c, g, k =>
    body.run c g fun c' g' => k c' ((index, c, c') :: g')

end Pattern

end CodeAudit
