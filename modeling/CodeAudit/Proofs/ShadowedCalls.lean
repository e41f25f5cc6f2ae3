import CodeAudit.Proofs.ReportedLines
import CodeAudit.Proofs.SuccessiveMatches
import Mathlib.Order.WellFounded

/-!
# Calls that hide others

Whether a call is one of a plain function is told by the character before its name. The checks of
debugging and of the environment look at all calls of a line, so that they report a line if one of
its calls is plain. The checks of sleeping and of rows that are narrowed in memory look at the first
place of the line only: a method of the same name, or a class without rows, hides what follows it.

Results:
* `fits_callOf`: what the patterns of calls describe.
* `Call.any_findAll_iff`: a search for all calls finds a plain one if there is one.
* `Call.find?_iff`, `Narrowing.find?_iff`: a search for one call finds the first.
* `fits_closedCall`: what the patterns of calls with their arguments describe.
* `exists_first_iff`: where the first place decides, and where any does.
* `first_place_decides`: what the four rules report.
-/

namespace CodeAudit

open Text Source

/-- If what holds of a place holds of all places before it, then the first place decides whether it
    holds of any. -/
theorem exists_first_iff {α : Type} {position : α → Nat} {test : α → Prop}
    (h : ∀ a b, position a ≤ position b → test b → test a) :
    (∃ a, (∀ b, position a ≤ position b) ∧ test a) ↔ ∃ a, test a := by
  constructor
  · rintro ⟨a, -, ha⟩
    exact ⟨a, ha⟩
  · rintro ⟨a, ha⟩
    have : Nonempty α := ⟨a⟩
    have hleast : ∀ b, position (Function.argmin position) ≤ position b := fun b =>
      Function.argmin_le position b
    exact ⟨Function.argmin position, hleast, h _ a (hleast a) ha⟩

namespace Check

/-! ## Calls -/

/-- Does the character before a name make it a method, a static member, a variable or part of a
    longer name? -/
def isBinding (c : Char) : Bool :=
  isLetterOrDigit c || c == '_' || c == '>' || c == ':' || c == '$' || c == '\\'

/-- A call of a function in a line of code: what stands before it, its name, white space, and what
    follows the parenthesis. -/
structure Call (names : List String) (code : List Char) where
  before : List Char
  name : String
  space : List Char
  rest : List Char
  code_eq : code = before ++ (name.toList ++ (space ++ '(' :: rest))
  known : name ∈ names
  starts : before.getLast?.any isWord = false
  spaced : ∀ c ∈ space, isBlank c = true

/-- The pattern of a call, given that of its name. -/
def callOf (name : Pattern) : Pattern :=
  .wordEdge ++ name ++ .blanks ++ .char '('

/-- Does the pattern describe the names, which are words? -/
structure Spells (pattern : Pattern) (names : List String) : Prop where
  words : names.all Pattern.isName = true
  fits : ∀ {previous : Option Char} {stretch rest : List Char},
    pattern.Fits previous stretch rest ↔ ∃ name ∈ names, stretch = name.toList

theorem spells_lit (word : String) (h : Pattern.isName word = true) :
    Spells (.lit word) [word] where
  words := by rw [List.all_cons, h, List.all_nil, Bool.and_true]
  fits := by simp

theorem isVisible_callOf (name : Pattern) : (callOf name).isVisible = true := by
  have hsign : (Pattern.char '(').isVisible = true := by decide
  exact Bool.or_eq_true_iff.mpr (.inl hsign)

theorem isWord_of_isBlank {c : Char} (h : isBlank c = true) : isWord c = false := by
  have hall : Pattern.blankChars.all (!isWord ·) = true := by decide +kernel
  have hc := List.all_eq_true.mp hall c (Pattern.mem_blankChars h)
  rwa [Bool.not_eq_true'] at hc

namespace Call

variable {names : List String} {code : List Char}

/-- Is it the call of a plain function? -/
def IsBare (call : Call names code) : Prop :=
  call.before.getLast?.any isBinding = false

instance (call : Call names code) : Decidable call.IsBare :=
  inferInstanceAs (Decidable (_ = false))

/-- Is there no call before it? -/
def IsFirst (call : Call names code) : Prop :=
  ∀ other : Call names code, call.before.length ≤ other.before.length

/-- The call as one stretch of the code. -/
theorem stretch_eq (call : Call names code) :
    code = call.before ++ ((call.name.toList ++ (call.space ++ ['('])) ++ call.rest) := by
  conv => lhs; rw [call.code_eq]
  simp

theorem IsFirst.before_eq {call other : Call names code} (h : call.IsFirst) (h' : other.IsFirst) :
    call.before = other.before := by
  have hcode := call.code_eq.symm.trans other.code_eq
  exact (List.append_inj hcode (Nat.le_antisymm (h other) (h' call))).1

end Call

theorem isBareCall_behind (before rest : List Char) :
    isBareCall (before ++ rest) (byteLength before) = !before.getLast?.any isBinding := by
  have hbefore := (Cursor.isIn_behind before rest).charBefore?
  rw [Cursor.behind_offset] at hbefore
  rw [isBareCall, hbefore]
  rfl

namespace Spells

variable {pattern : Pattern} {names : List String} (h : Spells pattern names)

include h

theorem chars {name : String} (hname : name ∈ names) :
    name.toList ≠ [] ∧ ∀ c ∈ name.toList, isWord c = true := by
  have hword := List.all_eq_true.mp h.words name hname
  rwa [Pattern.isName, Bool.and_eq_true, List.all_eq_true, Bool.not_eq_true',
    List.isEmpty_eq_false_iff] at hword

/-- What the pattern of a call describes. -/
theorem fits_callOf {previous : Option Char} {stretch rest : List Char} :
    (callOf pattern).Fits previous stretch rest ↔
      previous.any isWord = false ∧ ∃ name ∈ names, ∃ space,
        (∀ c ∈ space, isBlank c = true) ∧ stretch = name.toList ++ (space ++ ['(']) := by
  constructor
  · rintro ⟨front, last, rfl, ⟨word, space, rfl, ⟨edge, name, rfl, ⟨rfl, hedge⟩, hname⟩, hspace⟩,
      hlast⟩
    obtain ⟨name, hmem, rfl⟩ := h.fits.mp hname
    obtain ⟨hne, hchars⟩ := h.chars hmem
    rw [Pattern.fits_blanks] at hspace
    rw [Pattern.fits_char.mp hlast]
    refine ⟨?_, name, hmem, space, hspace, by simp⟩
    have hhead : (name.toList ++ ((space ++ (last ++ rest)))).head?.any isWord = true := by
      rw [List.head?_append_of_ne_nil _ hne, List.head?_eq_some_head hne]
      exact hchars _ (List.head_mem hne)
    rw [hhead] at hedge
    exact Bool.eq_false_iff.mpr hedge
  · rintro ⟨hprevious, name, hmem, space, hspace, rfl⟩
    obtain ⟨hne, hchars⟩ := h.chars hmem
    refine ⟨name.toList ++ space, ['('], by simp, ⟨name.toList, space, rfl,
      ⟨[], name.toList, rfl, ⟨rfl, ?_⟩, h.fits.mpr ⟨name, hmem, rfl⟩⟩, ?_⟩,
      Pattern.fits_char.mpr rfl⟩
    · rw [hprevious, List.head?_append_of_ne_nil _ hne, List.head?_eq_some_head hne]
      simp [hchars _ (List.head_mem hne)]
    · exact Pattern.fits_blanks.mpr hspace

theorem exists_call {before stretch rest : List Char}
    (hfits : (callOf pattern).Fits before.getLast? stretch rest) :
    ∃ call : Call names (before ++ (stretch ++ rest)), call.before = before := by
  obtain ⟨hprevious, name, hname, space, hspace, rfl⟩ := h.fits_callOf.mp hfits
  exact ⟨⟨before, name, space, rest, by simp, hname, hprevious, hspace⟩, rfl⟩

theorem fits_call {code : List Char} (call : Call names code) :
    (callOf pattern).Fits call.before.getLast? (call.name.toList ++ (call.space ++ ['(']))
      call.rest :=
  h.fits_callOf.mpr ⟨call.starts, call.name, call.known, call.space, call.spaced, rfl⟩

/-- No call begins inside another. -/
theorem not_fits_over {code : List Char} (call : Call names code) {b x y r : List Char}
    (hbefore : call.before = b ++ x)
    (hrest : call.name.toList ++ (call.space ++ ['(']) ++ call.rest = y ++ r) (hx : x ≠ [])
    (hy : y ≠ []) : ¬ (callOf pattern).Fits b.getLast? (x ++ y) r := by
  intro hfits
  obtain ⟨-, name, hname, space, hspace, hstretch⟩ := h.fits_callOf.mp hfits
  rcases List.append_eq_append_iff.mp hstretch with ⟨z, hword, -⟩ | ⟨z, -, hsign⟩
  · -- The call would begin within the name of the other.
    have hlast : isWord (x.getLast hx) = true := by
      refine (h.chars hname).2 _ ?_
      rw [hword]
      exact List.mem_append_left _ (List.getLast_mem hx)
    have hstarts := call.starts
    rw [hbefore, List.getLast?_append_of_ne_nil _ hx, List.getLast?_eq_some_getLast hx,
      Option.any_some, hlast] at hstarts
    cases hstarts
  · -- It would begin with white space or with the parenthesis.
    have hhead : isWord (y.head hy) = true := by
      obtain ⟨hne, hchars⟩ := h.chars call.known
      have hsame := congrArg List.head? hrest
      rw [List.append_assoc, List.head?_append_of_ne_nil _ hne, List.head?_append_of_ne_nil _ hy,
        List.head?_eq_some_head hne, List.head?_eq_some_head hy, Option.some_inj] at hsame
      rw [← hsame]
      exact hchars _ (List.head_mem hne)
    have hmem : y.head hy ∈ space ++ ['('] := by
      rw [hsign]
      exact List.mem_append_right _ (List.head_mem hy)
    rcases List.mem_append.mp hmem with hspaced | hparen
    · rw [isWord_of_isBlank (hspace _ hspaced)] at hhead
      cases hhead
    · rw [List.mem_singleton.mp hparen] at hhead
      exact absurd hhead (by decide)

/-- A search for all calls finds a plain one if there is one. -/
theorem any_findAll_iff (code : List Char) :
    ((callOf pattern).findAll code).any (fun found => isBareCall code found.whole.start) = true ↔
      ∃ call : Call names code, call.IsBare := by
  rw [List.any_eq_true]
  constructor
  · rintro ⟨m, hm, hbare⟩
    obtain ⟨before, rest, rfl, hmatch, hstart⟩ :=
      Pattern.exists_of_mem_findAll (isVisible_callOf pattern) hm
    obtain ⟨stretch, later, hrest, hfits, -⟩ := Pattern.exists_fits_of_matchAt? hmatch
    obtain ⟨call, hcall⟩ := h.exists_call hfits
    rw [Cursor.behind_rest] at hrest
    subst hrest
    refine ⟨call, ?_⟩
    rw [hstart, isBareCall_behind, Bool.not_eq_true', ← hcall] at hbare
    exact hbare
  · rintro ⟨call, hbare⟩
    have hcode := call.stretch_eq
    obtain ⟨m, hm, -, hstart⟩ := Pattern.exists_mem_findAll (isVisible_callOf pattern)
      (h.fits_call call) fun b x y r hbefore hrest => h.not_fits_over call hbefore hrest
    rw [hcode]
    refine ⟨m, hm, ?_⟩
    rw [hstart, isBareCall_behind, Bool.not_eq_true']
    exact hbare

/-- A search for one call finds the first. -/
theorem find?_iff (code : List Char) :
    ((callOf pattern).find? code).any (fun found => isBareCall code found.whole.start) = true ↔
      ∃ call : Call names code, call.IsFirst ∧ call.IsBare := by
  cases hfind : (callOf pattern).find? code with
  | none =>
    rw [Pattern.find?_eq_none_iff] at hfind
    refine iff_of_false (fun h => by cases h) ?_
    rintro ⟨call, -⟩
    exact hfind _ _ _ call.stretch_eq (h.fits_call call)
  | some m =>
    obtain ⟨before, text, rfl, hm, hfirst⟩ := Pattern.exists_first_of_find? hfind
    obtain ⟨stretch, rest, hrest, hfits, hwhole, -⟩ := Pattern.exists_fits_of_matchAt? hm
    have htext : text = stretch ++ rest := hrest
    subst htext
    obtain ⟨call, hcall⟩ := h.exists_call hfits
    have hcallFirst : call.IsFirst := fun other => by
      rw [hcall]
      exact hfirst _ _ _ other.stretch_eq (h.fits_call other)
    have hstart : m.whole.start = byteLength before := by rw [hwhole]; rfl
    rw [Option.any_some, hstart, isBareCall_behind, Bool.not_eq_true']
    constructor
    · intro hbare
      exact ⟨call, hcallFirst, by rw [Call.IsBare, hcall]; exact hbare⟩
    · rintro ⟨other, hother, hbare⟩
      rw [Call.IsBare, hother.before_eq hcallFirst, hcall] at hbare
      exact hbare

end Spells

theorem fits_arguments {previous : Option Char} {stretch rest : List Char} :
    (Pattern.many (.noneOf ")")).Fits previous stretch rest ↔ ')' ∉ stretch := by
  rw [Pattern.fits_many_noneOf]
  constructor
  · exact fun h hmem => h _ hmem (by decide)
  · rintro h c hc hparen
    rw [List.mem_singleton.mp hparen] at hc
    exact h hc

/-- What the pattern of a call up to its first closing parenthesis describes. -/
theorem fits_closedCall {word : String} (hword : Pattern.isName word = true)
    {previous : Option Char} {stretch rest : List Char} :
    (callOf (.lit word) ++ .many (.noneOf ")") ++ .char ')').Fits previous stretch rest ↔
      previous.any isWord = false ∧ ∃ space args, (∀ c ∈ space, isBlank c = true) ∧ ')' ∉ args ∧
        stretch = word.toList ++ (space ++ '(' :: (args ++ [')'])) := by
  have hspells := spells_lit word hword
  constructor
  · rintro ⟨_, last, rfl, ⟨front, args, rfl, hfront, hargs⟩, hlast⟩
    obtain ⟨hprevious, name, hname, space, hspace, rfl⟩ := hspells.fits_callOf.mp hfront
    rw [List.mem_singleton.mp hname, Pattern.fits_char.mp hlast]
    exact ⟨hprevious, space, args, hspace, fits_arguments.mp hargs, by simp⟩
  · rintro ⟨hprevious, space, args, hspace, hargs, rfl⟩
    refine ⟨word.toList ++ (space ++ ['(']) ++ args, [')'], by simp, ⟨_, args, rfl, ?_,
      fits_arguments.mpr hargs⟩, Pattern.fits_char.mpr rfl⟩
    exact hspells.fits_callOf.mpr ⟨hprevious, word, List.mem_singleton_self _, space, hspace, rfl⟩

/-! ## Rows that are narrowed in memory -/

/-- May the character stand in the name of a class? -/
def inClassName (c : Char) : Bool :=
  c == '\\' || isWord c

/-- Is the text a name that begins with the word? -/
def BeginsName (word : String) (name : List Char) : Prop :=
  ∃ more, (∀ c ∈ more, isWord c = true) ∧ name = word.toList ++ more

/-- Does the method narrow a collection? -/
def Narrows (method : List Char) : Prop :=
  BeginsName "where" method ∨
    (∃ word ∈ ["filter", "first", "count", "reject", "pluck"], method = word.toList) ∨
    BeginsName "sortBy" method

/-- Are these calls behind the name of a class that load all its rows and then narrow them? -/
def NarrowsAll (calls : List Char) : Prop :=
  ∃ space gap method last, (∀ c ∈ space ++ (gap ++ last), isBlank c = true) ∧ Narrows method ∧
    calls = "::all()".toList ++ (space ++ ("->".toList ++ (gap ++ (method ++ (last ++ ['('])))))

/-- All rows of a class in a line of code that are then narrowed: what stands before the name of the
    class, the whole name, the calls behind it, and the rest of the line. -/
structure Narrowing (code : List Char) where
  before : List Char
  scope : List Char
  calls : List Char
  rest : List Char
  code_eq : code = before ++ (scope ++ (calls ++ rest))
  named : scope ≠ []
  chars : ∀ c ∈ scope, inClassName c = true
  whole : before.getLast?.any inClassName = false
  narrows : NarrowsAll calls

/-- The pattern of a method that narrows. -/
def narrowingMethod : Pattern :=
  .lit "where" ++ .many .word <|> .lit "filter" <|> .lit "first" <|> .lit "count" <|>
    .lit "reject" <|> .lit "pluck" <|> .lit "sortBy" ++ .many .word

/-- The pattern of what stands behind the name of the class. -/
def narrowingCalls : Pattern :=
  .lit "::all()" ++ (.blanks ++ (.lit "->" ++ (.blanks ++ (.group 2 narrowingMethod ++
    (.blanks ++ .char '(')))))

theorem matchAt?_allRowsNarrowed (c : Cursor) :
    Collection.allRowsNarrowed.matchAt? c =
      (.empty ++ .group 1 (.many1 (.one inClassName)) ++ narrowingCalls : Pattern).matchAt? c := by
  rfl

theorem fits_narrowingMethod {previous : Option Char} {stretch rest : List Char} :
    narrowingMethod.Fits previous stretch rest ↔ Narrows stretch := by
  have hlong : ∀ word : String, (Pattern.lit word ++ .many .word).Fits previous stretch rest ↔
      BeginsName word stretch := by
    intro word
    constructor
    · rintro ⟨_, more, rfl, hword, hmore⟩
      rw [Pattern.fits_lit.mp hword]
      exact ⟨more, Pattern.fits_many_one.mp hmore, rfl⟩
    · rintro ⟨more, hmore, rfl⟩
      exact ⟨_, more, rfl, Pattern.fits_lit.mpr rfl, Pattern.fits_many_one.mpr hmore⟩
  rw [narrowingMethod, Pattern.fits_choice, Pattern.fits_choice, Pattern.fits_choice,
    Pattern.fits_choice, Pattern.fits_choice, Pattern.fits_choice, hlong, hlong]
  simp only [Pattern.fits_lit, Narrows, List.mem_cons, List.not_mem_nil, or_false,
    exists_eq_or_imp, exists_eq_left, or_assoc]

theorem fits_narrowingCalls {previous : Option Char} {stretch rest : List Char} :
    narrowingCalls.Fits previous stretch rest ↔ NarrowsAll stretch := by
  constructor
  · rintro ⟨all, _, rfl, hall, space, _, rfl, hspace, arrow, _, rfl, harrow, gap, _, rfl, hgap,
      method, _, rfl, hmethod, last, sign, rfl, hlast, hsign⟩
    rw [Pattern.fits_lit] at hall harrow
    rw [Pattern.fits_blanks] at hspace hgap hlast
    rw [Pattern.fits_char] at hsign
    subst hall harrow hsign
    refine ⟨space, gap, method, last, ?_, fits_narrowingMethod.mp hmethod, rfl⟩
    exact List.forall_mem_append.mpr ⟨hspace, List.forall_mem_append.mpr ⟨hgap, hlast⟩⟩
  · rintro ⟨space, gap, method, last, hblank, hmethod, rfl⟩
    rw [List.forall_mem_append, List.forall_mem_append] at hblank
    exact ⟨_, _, rfl, Pattern.fits_lit.mpr rfl, _, _, rfl, Pattern.fits_blanks.mpr hblank.1,
      _, _, rfl, Pattern.fits_lit.mpr rfl, _, _, rfl, Pattern.fits_blanks.mpr hblank.2.1,
      _, _, rfl, fits_narrowingMethod.mpr hmethod, _, _, rfl, Pattern.fits_blanks.mpr hblank.2.2,
      Pattern.fits_char.mpr rfl⟩

/-- What the pattern of rows that are narrowed describes. -/
theorem fits_allRowsNarrowed {previous : Option Char} {stretch rest : List Char} :
    Collection.allRowsNarrowed.Fits previous stretch rest ↔
      ∃ scope calls, scope ≠ [] ∧ (∀ c ∈ scope, inClassName c = true) ∧ NarrowsAll calls ∧
        stretch = scope ++ calls := by
  have hassoc : Collection.allRowsNarrowed.Fits previous stretch rest ↔
      (.group 1 (.many1 (.one inClassName)) ++ narrowingCalls : Pattern).Fits previous stretch
        rest := by
    rw [Collection.allRowsNarrowed, Collection.allRows]
    simp only [Pattern.fits_seq_assoc]
    exact Iff.rfl
  rw [hassoc]
  constructor
  · rintro ⟨scope, calls, rfl, hscope, hcalls⟩
    obtain ⟨hne, hchars⟩ := Pattern.fits_many1_one.mp hscope
    exact ⟨scope, calls, hne, hchars, fits_narrowingCalls.mp hcalls, rfl⟩
  · rintro ⟨scope, calls, hne, hchars, hcalls, rfl⟩
    exact ⟨scope, calls, rfl, Pattern.fits_many1_one.mpr ⟨hne, hchars⟩,
      fits_narrowingCalls.mpr hcalls⟩

namespace Narrowing

variable {code : List Char}

/-- Is there none before it? -/
def IsFirst (n : Narrowing code) : Prop :=
  ∀ other : Narrowing code, n.before.length ≤ other.before.length

theorem fits (n : Narrowing code) :
    Collection.allRowsNarrowed.Fits n.before.getLast? (n.scope ++ n.calls) n.rest :=
  fits_allRowsNarrowed.mpr ⟨n.scope, n.calls, n.named, n.chars, n.narrows, rfl⟩

theorem stretch_eq (n : Narrowing code) :
    code = n.before ++ ((n.scope ++ n.calls) ++ n.rest) := by
  rw [List.append_assoc]
  exact n.code_eq

/-- The name of a class ends where the calls begin. -/
theorem scope_eq (n : Narrowing code) :
    n.scope = (n.scope ++ (n.calls ++ n.rest)).takeWhile inClassName := by
  have hcolon : (n.calls ++ n.rest).head?.any inClassName = false := by
    obtain ⟨space, gap, method, last, -, -, hcalls⟩ := n.narrows
    rw [hcalls]
    rfl
  exact (span_append_of_head n.chars hcolon).1.symm

/-- The first one tells the class. -/
theorem IsFirst.scope_eq {n other : Narrowing code} (h : n.IsFirst) (h' : other.IsFirst) :
    n.scope = other.scope := by
  have hcode := n.code_eq.symm.trans other.code_eq
  have hrest := (List.append_inj hcode (Nat.le_antisymm (h other) (h' n))).2
  rw [n.scope_eq, other.scope_eq, hrest]

/-- The match that is found is the first, and it begins with the whole name of the class. -/
theorem exists_of_find? {m : Match} (h : Collection.allRowsNarrowed.find? code = some m) :
    ∃ n : Narrowing code, n.IsFirst ∧ m.text 1 = n.scope := by
  obtain ⟨before, text, rfl, hm, hfirst⟩ := Pattern.exists_first_of_find? h
  rw [matchAt?_allRowsNarrowed] at hm
  obtain ⟨a, scope, calls, rest, htext, ha, hscope, hcalls, hgroup, -⟩ :=
    Pattern.exists_of_matchAt?_group (by rfl) hm
  have hnil : a = [] := ha
  subst hnil
  have hrest : text = scope ++ (calls ++ rest) := htext
  subst hrest
  obtain ⟨hne, hchars⟩ := Pattern.fits_many1_one.mp hscope
  have hnarrows := fits_narrowingCalls.mp hcalls
  have hwhole : before.getLast?.any inClassName = false := by
    rcases List.eq_nil_or_concat before with rfl | ⟨front, x, rfl⟩
    · rfl
    · -- With one more character of the name, a match would begin before.
      rw [List.concat_eq_append, List.getLast?_concat, Option.any_some]
      refine Bool.eq_false_iff.mpr fun hx => ?_
      have hlonger : Collection.allRowsNarrowed.Fits front.getLast? ((x :: scope) ++ calls) rest :=
        fits_allRowsNarrowed.mpr ⟨x :: scope, calls, List.cons_ne_nil _ _,
          List.forall_mem_cons.mpr ⟨hx, hchars⟩, hnarrows, rfl⟩
      have hle := hfirst front _ rest (by simp) hlonger
      rw [List.concat_eq_append, List.length_append, List.length_singleton] at hle
      omega
  refine ⟨⟨before, scope, calls, rest, rfl, hne, hchars, hwhole, hnarrows⟩, ?_, ?_⟩
  · exact fun other => hfirst _ _ _ other.stretch_eq other.fits
  · rw [Match.text, hgroup]
    rfl

/-- A search for one finds the first. -/
theorem find?_iff (code : List Char) :
    (Collection.allRowsNarrowed.find? code).any (fun found => isQueryScope (found.text 1)) = true ↔
      ∃ n : Narrowing code, n.IsFirst ∧ isQueryScope n.scope = true := by
  cases hfind : Collection.allRowsNarrowed.find? code with
  | none =>
    rw [Pattern.find?_eq_none_iff] at hfind
    refine iff_of_false (fun h => by cases h) ?_
    rintro ⟨n, -⟩
    exact hfind _ _ _ n.stretch_eq n.fits
  | some m =>
    obtain ⟨n, hn, htext⟩ := exists_of_find? hfind
    rw [Option.any_some, htext]
    constructor
    · exact fun hscope => ⟨n, hn, hscope⟩
    · rintro ⟨other, hother, hscope⟩
      rwa [hn.scope_eq hother]

end Narrowing

/-! ## What is reported -/

open Danger (IssuesOf)

/-- The names of functions that sleep. -/
def sleepNames : List String := ["sleep", "usleep"]

/-- The names of functions for debugging. -/
def debugNames : List String := ["dd", "dump", "var_dump", "print_r", "ray"]

theorem spells_sleeping : Spells (.group 1 (.opt (.char 'u') ++ .lit "sleep")) sleepNames where
  words := by decide
  fits := by
    intro previous stretch rest
    constructor
    · rintro ⟨_, _, rfl, hu, hsleep⟩
      rw [Pattern.fits_lit] at hsleep
      subst hsleep
      rcases hu with hu | hu
      · rw [Pattern.fits_char.mp hu]
        exact ⟨"usleep", by decide, rfl⟩
      · rw [hu]
        exact ⟨"sleep", by decide, rfl⟩
    · rintro ⟨name, hname, rfl⟩
      simp only [sleepNames, List.mem_cons, List.not_mem_nil, or_false] at hname
      rcases hname with rfl | rfl
      · exact ⟨[], "sleep".toList, rfl, .inr rfl, Pattern.fits_lit.mpr rfl⟩
      · exact ⟨['u'], "sleep".toList, rfl, .inl (Pattern.fits_char.mpr rfl),
          Pattern.fits_lit.mpr rfl⟩

theorem spells_debugging : Spells (.group 1 (.lits debugNames)) debugNames where
  words := by decide
  fits := Pattern.fits_lits

namespace Collection

theorem narrowedInMemory_ne_nil_iff (s : Subject) (row : Nat) (code : List Char) :
    narrowedInMemory s row code ≠ [] ↔
      ∃ n : Narrowing code, n.IsFirst ∧ isQueryScope n.scope = true := by
  rw [← Narrowing.find?_iff, narrowedInMemory]
  cases allRowsNarrowed.find? code with
  | none => simp
  | some found => exact Danger.ite_ne_nil_iff

theorem blocking_ne_nil_iff (s : Subject) (row : Nat) (code : List Char) :
    blocking s row code ≠ [] ↔
      ∃ call : Call sleepNames (blankStrings code), call.IsFirst ∧ call.IsBare := by
  rw [← spells_sleeping.find?_iff, blocking]
  change _ ↔ (sleeping.find? (blankStrings code)).any _ = true
  cases sleeping.find? (blankStrings code) with
  | none => simp
  | some found => exact Danger.ite_ne_nil_iff

theorem issuesOf_narrowedInMemory (s : Subject) (row : Nat) (code : List Char) :
    IssuesOf .allThenFilter row (narrowedInMemory s row code) := by
  fun_cases narrowedInMemory <;> simp [IssuesOf, Rule.name, Rule.entry]

theorem issuesOf_blocking (s : Subject) (row : Nat) (code : List Char) :
    IssuesOf .sleepCall row (blocking s row code) := by
  fun_cases blocking <;> simp [IssuesOf, Rule.name, Rule.entry]

/-- The issues of two of the rules about collections. -/
theorem among_run (s : Subject) :
    Rule.allThenFilter.among (run s) =
        s.codeLines.flatMap (fun line => narrowedInMemory s line.row line.code) ∧
      Rule.sleepCall.among (run s) = s.codeLines.flatMap fun line =>
        if s.role.runsInBackground then [] else blocking s line.row line.code := by
  have hcounted : ∀ row code, IssuesOf .countOnGet row (countedInMemory s row code) := by
    intro row code
    fun_cases countedInMemory <;> simp [IssuesOf, Rule.name, Rule.entry]
  have hselected : ∀ row code, IssuesOf .selectStar row (allSelected s row code) := by
    intro row code
    fun_cases allSelected <;> simp [IssuesOf, Rule.name, Rule.entry]
  have hunbounded : ∀ row code, IssuesOf .unboundedAll row
      (if s.role == .controller then unbounded s row code else []) := by
    intro row code
    split
    · fun_cases unbounded <;> simp [IssuesOf, Rule.name, Rule.entry]
    · simp [IssuesOf]
  have hblocking : ∀ row code, IssuesOf .sleepCall row
      (if s.role.runsInBackground then [] else blocking s row code) := by
    intro row code
    split
    · simp [IssuesOf]
    · exact issuesOf_blocking s row code
  constructor
  · rw [run, Rule.among_flatMap]
    refine List.flatMap_congr fun line _ => ?_
    rw [Rule.among_append, Rule.among_append, Rule.among_append, Rule.among_append,
      (issuesOf_narrowedInMemory s _ _).among_eq, (hcounted _ _).among_nil (by decide),
      (hselected _ _).among_nil (by decide), (hunbounded _ _).among_nil (by decide),
      (hblocking _ _).among_nil (by decide), List.append_nil, List.append_nil, List.append_nil,
      List.append_nil]
  · rw [run, Rule.among_flatMap]
    refine List.flatMap_congr fun line _ => ?_
    rw [Rule.among_append, Rule.among_append, Rule.among_append, Rule.among_append,
      (issuesOf_narrowedInMemory s _ _).among_nil (by decide),
      (hcounted _ _).among_nil (by decide), (hselected _ _).among_nil (by decide),
      (hunbounded _ _).among_nil (by decide), (hblocking _ _).among_eq]
    rfl

end Collection

theorem reportedOn_debugging {s : Subject} (hs : s.IsNumbered) {line : SourceLine}
    (hline : line ∈ s.codeLines) :
    Rule.debugStatement.ReportedOn (Practice.run s) line.row ↔
      ∃ call : Call debugNames line.bare, call.IsBare := by
  have hrun := Practice.among_debugCalls s
  rw [Practice.debugCalls, List.filterMap_eq_flatMap_toList] at hrun
  rw [Rule.reportedOn_iff hs hrun (fun line => ?_) hline, ← spells_debugging.any_findAll_iff]
  · change _ ↔ (Practice.debugCall.findAll line.bare).any _ = true
    rw [List.any_eq_true, ← List.find?_isSome]
    dsimp only
    cases (Practice.debugCall.findAll line.bare).find? _ with
    | none => exact iff_of_false (fun hne => hne rfl) Bool.false_ne_true
    | some found => exact iff_of_true (List.cons_ne_nil _ _) rfl
  · intro issue hissue
    obtain ⟨found, -, hfound⟩ := Option.bind_eq_some_iff.mp (Option.mem_toList.mp hissue)
    cases hfound
    exact ⟨rfl, rfl⟩

theorem reportedOn_environment {s : Subject} (hs : s.IsNumbered) (hrole : s.role ≠ .config)
    {line : SourceLine} (hline : line ∈ s.codeLines) :
    Rule.envOutsideConfig.ReportedOn (Idiom.environment s) line.row ↔
      ∃ call : Call ["env"] line.bare, call.IsBare := by
  have hrun : Rule.envOutsideConfig.among (Idiom.environment s) = s.codeLines.flatMap fun line =>
      if (Idiom.environmentCall.findAll line.bare).any
          (fun found => isBareCall line.bare found.whole.start) then
        [s.report .idiom "env_outside_config" .medium line.row "env() outside config"
          "env() returns null once the configuration is cached"
          "Read the value in a config/*.php file and use config('...') here"]
      else [] := by
    rw [Idiom.environment, if_neg (by simpa using hrole), Rule.among_flatMap]
    refine List.flatMap_congr fun line _ => ?_
    have hother : Rule.superglobalUsage.name ≠ Rule.envOutsideConfig.name := by decide
    rw [Rule.among_append, Rule.among_of_forall, Rule.among_of_other hother, List.append_nil]
    · split <;> simp [Rule.name, Rule.entry]
    · split <;> simp [Rule.name, Rule.entry]
  rw [Rule.reportedOn_iff hs hrun (fun line => ?_) hline,
    ← (spells_lit "env" (by decide)).any_findAll_iff]
  · exact Danger.ite_ne_nil_iff
  · split <;> simp [IssuesOf, Rule.name, Rule.entry]

end Check

open Check in
/-- On a line of code, a sleeping call is reported, unless the file runs in the background, exactly
    if the first call of a function that sleeps is plain. Rows that are narrowed in memory are
    reported exactly if the first class whose rows are narrowed may have rows. If nothing else
    stands before a place that is to be reported, then any such place is. Debugging calls and calls
    that read the environment are reported wherever they are plain. -/
theorem first_place_decides (path : String) (source : ParsedSource) (role : Role) (radius : Nat)
    {line : SourceLine} (hline : line ∈ (Subject.ofSource path source role radius).codeLines) :
    (role ≠ .command → role ≠ .job →
      (Rule.sleepCall.ReportedOn (Collection.run (.ofSource path source role radius)) line.row ↔
        ∃ call : Call sleepNames line.bare, call.IsFirst ∧ call.IsBare) ∧
      ((∀ call other : Call sleepNames line.bare, call.before.length ≤ other.before.length →
          other.IsBare → call.IsBare) →
        (Rule.sleepCall.ReportedOn (Collection.run (.ofSource path source role radius)) line.row ↔
          ∃ call : Call sleepNames line.bare, call.IsBare))) ∧
    (Rule.allThenFilter.ReportedOn (Collection.run (.ofSource path source role radius)) line.row ↔
      ∃ n : Narrowing line.code, n.IsFirst ∧ isQueryScope n.scope = true) ∧
    ((∀ n other : Narrowing line.code, n.before.length ≤ other.before.length →
        isQueryScope other.scope = true → isQueryScope n.scope = true) →
      (Rule.allThenFilter.ReportedOn (Collection.run (.ofSource path source role radius)) line.row ↔
        ∃ n : Narrowing line.code, isQueryScope n.scope = true)) ∧
    (Rule.debugStatement.ReportedOn (Practice.run (.ofSource path source role radius)) line.row ↔
      ∃ call : Call debugNames line.bare, call.IsBare) ∧
    (role ≠ .config →
      (Rule.envOutsideConfig.ReportedOn (Idiom.environment (.ofSource path source role radius))
          line.row ↔
        ∃ call : Call ["env"] line.bare, call.IsBare)) := by
  have hs := Subject.isNumbered_ofSource path source role radius
  obtain ⟨hnarrowed, hblocking⟩ := Collection.among_run (.ofSource path source role radius)
  have hfilter := (Rule.reportedOn_iff hs hnarrowed
    (fun line => Collection.issuesOf_narrowedInMemory _ line.row line.code) hline).trans
    (Collection.narrowedInMemory_ne_nil_iff _ line.row line.code)
  refine ⟨fun hcommand hjob => ?_, hfilter, fun hsame => ?_, reportedOn_debugging hs hline,
    fun hrole => reportedOn_environment hs hrole hline⟩
  · have hbackground : role.runsInBackground = false := by
      cases role <;> first | rfl | contradiction
    have hrun : Rule.sleepCall.among (Collection.run (.ofSource path source role radius)) =
        (Subject.ofSource path source role radius).codeLines.flatMap fun line =>
          Collection.blocking (.ofSource path source role radius) line.row line.code := by
      rw [hblocking]
      exact List.flatMap_congr fun line _ => if_neg (Bool.eq_false_iff.mp hbackground)
    have hsleep := (Rule.reportedOn_iff hs hrun
      (fun line => Collection.issuesOf_blocking _ line.row line.code) hline).trans
      (Collection.blocking_ne_nil_iff _ line.row line.code)
    exact ⟨hsleep, fun hsame => hsleep.trans (exists_first_iff hsame)⟩
  · exact hfilter.trans (exists_first_iff hsame)

/-- A line with a plain call in front of a method of the same name. -/
def plainFirst : SourceLine := ⟨1, "sleep(2); $t->sleep(1);".toList, false⟩

open Check in
/-- The plain call is reported. -/
theorem plain_first_reported :
    plainFirst ∈ (Subject.ofSource "app/A.php" ⟨.php, plainFirst.text, none, none⟩ .plain
        0).codeLines ∧ Role.plain ≠ .command ∧ Role.plain ≠ .job ∧
      Rule.sleepCall.ReportedOn (Collection.run
        (.ofSource "app/A.php" ⟨.php, plainFirst.text, none, none⟩ .plain 0)) 1 := by
  have hline : plainFirst ∈ (Subject.ofSource "app/A.php" ⟨.php, plainFirst.text, none, none⟩
      .plain 0).codeLines := List.mem_singleton.mpr rfl
  have hcall : ∃ call : Call sleepNames plainFirst.bare, call.IsFirst ∧ call.IsBare :=
    ⟨⟨[], "sleep", [], "2); $t->sleep(1);".toList, by decide, by decide, rfl,
      List.forall_mem_nil _⟩, fun _ => Nat.zero_le _, rfl⟩
  refine ⟨hline, by decide, by decide, ?_⟩
  exact ((first_place_decides "app/A.php" ⟨.php, plainFirst.text, none, none⟩ .plain 0 hline).1
    (by decide) (by decide)).1.mpr hcall

/-- A line with a plain call behind a method of the same name, and with a class that has rows behind
    one that has none. -/
def hiddenCalls : List Char :=
  "Arr::all()->first(); $t->sleep(1); User::all()->first(); sleep(2);".toList

open Check in
/-- Both are there, and nothing is reported. -/
theorem second_calls_unseen :
    (∃ call : Call sleepNames (bareCode hiddenCalls), call.IsBare) ∧
      (∃ n : Narrowing (codePart hiddenCalls), isQueryScope n.scope = true) ∧
      (Collection.run (.ofSource "app/Support/A.php" ⟨.php, hiddenCalls, none, none⟩ .plain
        0)).length = 0 := by
  refine ⟨⟨⟨"Arr::all()->first(); $t->sleep(1); User::all()->first(); ".toList, "sleep", [],
    "2);".toList, by decide, by decide, by decide, List.forall_mem_nil _⟩, by decide⟩, ?_, ?_⟩
  · have hcalls : NarrowsAll "::all()->first(".toList := ⟨[], [], "first".toList, [],
      List.forall_mem_nil _, .inr (.inl ⟨"first", by decide, rfl⟩), rfl⟩
    have hscope : isQueryScope "User".toList = true := by decide
    exact ⟨⟨"Arr::all()->first(); $t->sleep(1); ".toList, "User".toList, _, "); sleep(2);".toList,
      by decide, by decide, List.all_eq_true.mp (by decide), by decide, hcalls⟩, hscope⟩
  · decide +kernel

end CodeAudit
