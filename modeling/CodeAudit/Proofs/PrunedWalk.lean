import CodeAudit.Proofs.WalkedFiles
import Mathlib.Data.List.DropRight

/-!
# Pruning a walk loses no file

A walk does not enter directories that a filter leaves out. It gives the files that a walk of
everything gives after the fact: those that the filter accepts by their paths, each under the first
path that leads to it. This rests on how paths are compared with the parts that are left out. Below
a directory, the compared text of a path begins with that of the directory, so whatever occurs in
the one occurs in the other.

The exception is a path without any name, such as that of the root directory. Its compared text is
two slashes, which need not occur below it.

Results:
* `enclosed_prefix_join`: the compared text of a directory begins that of its entries.
* `excludes_join`: what is left out is left out as a whole.
* `filter_walk`: entering fewer directories changes nothing that is accepted.
* `candidates_eq_filtered_walk`: the files of a pruned walk, as a filtered list.
-/

namespace CodeAudit

open Text

/-! ## Parts of paths -/

namespace Text

theorem occurs_iff_isInfix {word text : List Char} : occurs word text = true ↔ word <:+: text := by
  induction text with
  | nil => rw [occurs, List.isEmpty_iff, List.infix_nil]
  | cons c rest ih =>
    rw [occurs, Bool.or_eq_true, List.isPrefixOf_iff_prefix, ih, List.infix_cons_iff]

/-- What occurs at the start of a text occurs in the text. -/
theorem mentions_of_isPrefix {word : String} {first text : List Char} (hfirst : first <+: text)
    (h : mentions word first = true) : mentions word text = true := by
  rw [mentions, occurs_iff_isInfix] at h ⊢
  exact h.trans hfirst.isInfix

end Text

namespace FileFilter

/-- Is there a character in a path besides slashes of either sort? -/
def hasName (chars : List Char) : Bool :=
  chars.any fun c => c != '/' && c != '\\'

/-- The characters of a path with slashes only. -/
def slashed (chars : List Char) : List Char :=
  chars.map fun c => if c = '\\' then '/' else c

/-- A text without slashes at its start. -/
def unled (chars : List Char) : List Char :=
  chars.dropWhile (· == '/')

/-- A text without slashes at its end. -/
def unended (chars : List Char) : List Char :=
  chars.rdropWhile (· == '/')

theorem enclosed_eq (path : String) :
    enclosed path = '/' :: unended (unled (slashed path.toList)) ++ ['/'] := by
  unfold enclosed Path.normalize
  rw [String.toList_ofList]
  rfl

theorem unled_append {chars : List Char} (h : unled chars ≠ []) (rest : List Char) :
    unled (chars ++ rest) = unled chars ++ rest := by
  unfold unled at h ⊢
  rw [List.dropWhile_append, if_neg (by rw [List.isEmpty_iff]; exact h)]

theorem unended_append (chars rest : List Char) :
    unended (chars ++ rest) =
      if unended rest = [] then unended chars else chars ++ unended rest := by
  unfold unended List.rdropWhile
  rw [List.reverse_append, List.dropWhile_append]
  by_cases h : rest.reverse.dropWhile (· == '/') = []
  · simp [h]
  · simp [h]

theorem unended_slash : unended ['/'] = [] := rfl

/-- After a slash there are only slashes, or something stays behind the slash. -/
theorem unended_cons_slash (rest : List Char) :
    unended ('/' :: rest) = [] ∨ ∃ others, unended ('/' :: rest) = '/' :: others := by
  have hprefix : unended ('/' :: rest) <+: '/' :: rest := List.rdropWhile_prefix _ _
  cases hrest : unended ('/' :: rest) with
  | nil => exact .inl rfl
  | cons c others =>
    rw [hrest] at hprefix
    have hc : c = '/' := (List.cons_prefix_cons.mp hprefix).1
    exact .inr ⟨others, by rw [hc]⟩

/-- The slashes at the end of a text begin with a slash, and so does what comes after them. -/
theorem unended_concat_prefix (chars rest : List Char) :
    unended chars ++ ['/'] <+: chars ++ '/' :: rest := by
  have hsplit : unended chars ++ chars.rtakeWhile (· == '/') = chars :=
    List.rdropWhile_append_rtakeWhile
  have hslash : ∀ c ∈ chars.rtakeWhile (· == '/'), c = '/' := by
    intro c hc
    have := List.mem_rtakeWhile_imp hc
    exact eq_of_beq this
  have htail : ['/'] <+: chars.rtakeWhile (· == '/') ++ '/' :: rest := by
    cases htake : chars.rtakeWhile (· == '/') with
    | nil => exact List.prefix_append ['/'] rest
    | cons c others =>
      have hc : c = '/' := hslash c (by rw [htake]; exact List.mem_cons_self)
      rw [hc]
      exact List.prefix_append ['/'] (others ++ '/' :: rest)
  have hprefix : unended chars ++ ['/'] <+:
      unended chars ++ (chars.rtakeWhile (· == '/') ++ '/' :: rest) :=
    (List.prefix_append_right_inj _).mpr htail
  rw [← List.append_assoc, hsplit] at hprefix
  exact hprefix

/-- A longer text is enclosed by more, if it goes on after a slash. -/
theorem unended_unled_prefix {chars : List Char} (h : unled chars ≠ []) (rest : List Char) :
    unended (unled chars) ++ ['/'] <+: unended (unled (chars ++ '/' :: rest)) ++ ['/'] := by
  rw [unled_append h, unended_append]
  rcases unended_cons_slash rest with hrest | ⟨others, hrest⟩
  · simp [hrest]
  · rw [if_neg (by rw [hrest]; exact List.cons_ne_nil _ _), hrest, List.append_assoc]
    exact unended_concat_prefix (unled chars) (others ++ ['/'])

theorem unled_slashed_eq_nil_iff (chars : List Char) :
    unled (slashed chars) = [] ↔ hasName chars = false := by
  unfold unled hasName
  rw [List.dropWhile_eq_nil_iff, List.any_eq_false]
  simp only [slashed, List.mem_map, forall_exists_index, and_imp, forall_apply_eq_imp_iff₂]
  refine forall₂_congr fun c _ => ?_
  by_cases hc : c = '\\' <;> simp [hc]

/-- A path without a name is compared as two slashes. -/
theorem enclosed_of_hasName_eq_false {path : String} (h : hasName path.toList = false) :
    enclosed path = ['/', '/'] := by
  rw [enclosed_eq, (unled_slashed_eq_nil_iff _).mpr h]
  rfl

/-- The compared text of a directory begins that of its entries. -/
theorem enclosed_prefix_join {dir name : String} (hdir : hasName dir.toList = true)
    (hname : Path.isName name = true) : enclosed dir <+: enclosed (Path.join dir name) := by
  have hne : dir ≠ "" := by
    rintro rfl
    cases hdir
  obtain ⟨before, hbefore, hjoin⟩ := Path.toList_join hne hname
  have hnamed : unled (slashed before) ≠ [] := by
    intro h
    rw [unled_slashed_eq_nil_iff] at h
    rcases hbefore with heq | heq
    · rw [heq, h] at hdir
      cases hdir
    · rw [heq, hasName, List.any_append, ← hasName, h] at hdir
      cases hdir
  -- a slash at the end of the directory does not count
  have henclosed : enclosed dir = '/' :: unended (unled (slashed before)) ++ ['/'] := by
    rw [enclosed_eq]
    rcases hbefore with heq | heq
    · rw [heq]
    · have hslashed : slashed dir.toList = slashed before ++ ['/'] := by
        rw [heq, slashed, List.map_append]
        rfl
      rw [hslashed, unled_append hnamed, unended_append, if_pos unended_slash]
  have hslashed : slashed (before ++ '/' :: name.toList) =
      slashed before ++ '/' :: slashed name.toList := List.map_append
  rw [henclosed, enclosed_eq, hjoin, hslashed, List.cons_append, List.cons_append]
  exact List.cons_prefix_cons.mpr ⟨rfl, unended_unled_prefix hnamed _⟩

/-! ## What is left out -/

/-- Is everything below a directory left out that is left out itself? It is if the directory has a
    name, or if two slashes are not a part that is left out. -/
def IsClosed (f : FileFilter) (path : String) : Prop :=
  hasName path.toList = true ∨ "//" ∉ f.excluded

theorem hasName_join {dir name : String} (hdir : dir ≠ "") (hname : Path.isName name = true)
    (h : hasName dir.toList = true) : hasName (Path.join dir name).toList = true := by
  obtain ⟨before, hbefore, hjoin⟩ := Path.toList_join hdir hname
  have hnamed : hasName before = true := by
    rcases hbefore with heq | heq
    · rw [← heq, h]
    · rw [heq, hasName, List.any_append, Bool.or_eq_true] at h
      rcases h with h | h
      · exact h
      · cases h
  rw [hjoin, hasName, List.any_append, ← hasName, hnamed, Bool.true_or]

theorem IsClosed.join {f : FileFilter} {dir name : String} (h : f.IsClosed dir) (hdir : dir ≠ "")
    (hname : Path.isName name = true) : f.IsClosed (Path.join dir name) := by
  rcases h with h | h
  · exact .inl (hasName_join hdir hname h)
  · exact .inr h

theorem mem_of_isInfix_slashes {word : List Char} (h : word <:+: ['/', '/']) :
    word = [] ∨ word = ['/'] ∨ word = ['/', '/'] := by
  simp only [List.infix_cons_iff, List.infix_nil, List.prefix_cons_iff, List.prefix_nil] at h
  grind

/-- What is left out is left out as a whole. -/
theorem excludes_join {f : FileFilter} {dir name : String} (hclosed : f.IsClosed dir)
    (hname : Path.isName name = true) (h : f.excludes dir = true) :
    f.excludes (Path.join dir name) = true := by
  obtain ⟨part, hpart, hmentions⟩ := List.any_eq_true.mp h
  refine List.any_eq_true.mpr ⟨part, hpart, ?_⟩
  by_cases hdir : hasName dir.toList = true
  · exact mentions_of_isPrefix (enclosed_prefix_join hdir hname) hmentions
  · -- only the empty part and a single slash are left, and these occur everywhere
    have hslashes : "//" ∉ f.excluded := hclosed.resolve_left hdir
    rw [enclosed_of_hasName_eq_false (Bool.eq_false_iff.mpr hdir), mentions, occurs_iff_isInfix]
      at hmentions
    rw [mentions, occurs_iff_isInfix, enclosed_eq]
    rcases mem_of_isInfix_slashes hmentions with hword | hword | hword
    · rw [hword]
      exact List.nil_infix
    · rw [hword, List.cons_append]
      exact (List.cons_prefix_cons.mpr ⟨rfl, List.nil_prefix⟩).isInfix
    · have heq : part.toList = "//".toList := by rw [hword]; decide
      rw [String.toList_inj.mp heq] at hpart
      exact absurd hpart hslashes

/-- Is a path left out, and with it everything below? -/
structure LeavesOut (f : FileFilter) (path : String) : Prop where
  nonempty : path ≠ ""
  closed : f.IsClosed path
  excluded : f.excludes path = true

theorem LeavesOut.join {f : FileFilter} {dir name : String} (h : f.LeavesOut dir)
    (hname : Path.isName name = true) : f.LeavesOut (Path.join dir name) where
  nonempty := Path.join_ne_empty h.nonempty hname
  closed := h.closed.join h.nonempty hname
  excluded := excludes_join h.closed hname h.excluded

end FileFilter

/-! ## Paths on a walk -/

namespace Disk

theorem ne_empty_of_find? {disk : Disk} {path : String} {found : Location × DiskNode}
    (h : disk.find? path = some found) : path ≠ "" := by
  rintro rfl
  cases h

section Paths

variable {P : String → Prop} {enters : String → Bool} {lists : Location → Bool}
  {jump : List Location → String → List WalkedFile}

mutual

/-- What the entries of a directory inherit, the files below a path have. -/
theorem path_of_mem_visit
    (hjoin : ∀ dir name, P dir → Path.isName name = true → P (Path.join dir name))
    (hjump : ∀ stack path, P path → ∀ file ∈ jump stack path, P file.path)
    (stack : List Location) (path : String) (location : Location) (node : DiskNode)
    (hproper : node.isProper = true) (hpath : P path) :
    ∀ file ∈ visit enters lists jump stack path location node, P file.path := by
  intro file hfile
  match node with
  | .file bytes =>
    rw [visit, List.mem_singleton] at hfile
    rw [hfile]
    exact hpath
  | .link target =>
    rw [visit] at hfile
    exact hjump stack path hpath file hfile
  | .dir children =>
    rw [visit] at hfile
    split at hfile
    · obtain ⟨entry, hentry, hfile⟩ := List.mem_flatMap.mp hfile
      rw [sortByName, List.mem_mergeSort] at hentry
      rw [DiskNode.isProper] at hproper
      exact path_of_mem_visitAll hjoin hjump (location :: stack) path location children hproper
        hpath entry hentry file hfile
    · cases hfile

theorem path_of_mem_visitAll
    (hjoin : ∀ dir name, P dir → Path.isName name = true → P (Path.join dir name))
    (hjump : ∀ stack path, P path → ∀ file ∈ jump stack path, P file.path)
    (stack : List Location) (path : String) (location : Location)
    (children : List (String × DiskNode)) (hproper : DiskNode.areProper children = true)
    (hpath : P path) :
    ∀ entry ∈ visitAll enters lists jump stack path location children, ∀ file ∈ entry.2,
      P file.path := by
  intro entry hentry file hfile
  match children with
  | [] =>
    rw [visitAll] at hentry
    cases hentry
  | (name, node) :: rest =>
    rw [visitAll] at hentry
    simp only [DiskNode.areProper, Bool.and_eq_true] at hproper
    obtain ⟨⟨⟨hname, _⟩, hnode⟩, hrest⟩ := hproper
    rcases List.mem_cons.mp hentry with rfl | hentry
    · exact path_of_mem_visit hjoin hjump stack _ _ node hnode (hjoin path name hpath hname)
        file hfile
    · exact path_of_mem_visitAll hjoin hjump stack path location rest hrest hpath entry hentry
        file hfile

end

theorem path_of_mem_walkPath {disk : Disk} (hproper : disk.root.isProper = true)
    (hjoin : ∀ dir name, P dir → Path.isName name = true → P (Path.join dir name))
    (jumps : Nat) (stack : List Location) (path : String) (hpath : P path) :
    ∀ file ∈ disk.walkPath enters jumps stack path, P file.path := by
  induction jumps generalizing stack path with
  | zero =>
    intro file hfile
    cases hfile
  | succ jumps ih =>
    intro file hfile
    rw [walkPath] at hfile
    split at hfile
    · cases hfile
    · rename_i location node hfind
      split at hfile
      · cases hfile
      · have hnode : node.isProper = true :=
          DiskNode.isProper_at? hproper (find?_eq_some_iff.mp hfind).2
        exact path_of_mem_visit hjoin (fun stack path hpath => ih stack path hpath) stack path
          location node hnode hpath file hfile

end Paths

/-! ## Entering fewer directories -/

/-- What is filtered out of sorted entries can be filtered out before they are sorted. -/
theorem filter_flatMap_sortByName (accept : WalkedFile → Bool)
    (entries : List (String × List WalkedFile)) :
    ((sortByName entries).flatMap (·.2)).filter accept =
      (sortByName (entries.map fun entry => (entry.1, entry.2.filter accept))).flatMap (·.2) := by
  have hsort : (sortByName entries).map (fun entry => (entry.1, entry.2.filter accept)) =
      sortByName (entries.map fun entry => (entry.1, entry.2.filter accept)) :=
    List.map_mergeSort fun _ _ _ _ => rfl
  rw [← hsort, List.filter_flatMap, List.flatMap_map]

section Filter

variable {f : FileFilter} {accept : WalkedFile → Bool} {lists : Location → Bool}
  {jump jump' : List Location → String → List WalkedFile}

mutual

/-- Below a path, the directories that are left out hold no accepted file. -/
theorem filter_visit (haccept : ∀ file, accept file = true → f.excludes file.path = false)
    (hjump : ∀ stack path, path ≠ "" → f.IsClosed path →
      (jump stack path).filter accept = (jump' stack path).filter accept)
    (hout : ∀ stack path, f.LeavesOut path → ∀ file ∈ jump' stack path, f.LeavesOut file.path)
    (stack : List Location) (path : String) (location : Location) (node : DiskNode)
    (hproper : node.isProper = true) (hpath : path ≠ "") (hclosed : f.IsClosed path) :
    (visit (fun path => !f.excludes path) lists jump stack path location node).filter accept =
      (visit (fun _ => true) lists jump' stack path location node).filter accept := by
  match node with
  | .file bytes => rw [visit, visit]
  | .link target =>
    rw [visit, visit]
    exact hjump stack path hpath hclosed
  | .dir children =>
    cases hexcludes : f.excludes path with
    | true =>
      -- the pruned walk stops here, and the other one meets nothing that is accepted
      have hbelow : ∀ file ∈ visit (fun _ => true) lists jump' stack path location (.dir children),
          f.LeavesOut file.path :=
        path_of_mem_visit (fun _ _ => FileFilter.LeavesOut.join) hout stack path location _ hproper
          ⟨hpath, hclosed, hexcludes⟩
      have hnone : (visit (fun _ => true) lists jump' stack path location (.dir children)).filter
          accept = [] := by
        refine List.filter_eq_nil_iff.mpr fun file hfile haccepted => ?_
        have hkept := haccept file haccepted
        rw [(hbelow file hfile).excluded] at hkept
        cases hkept
      rw [hnone, visit, hexcludes]
      rfl
    | false =>
      rw [DiskNode.isProper] at hproper
      rw [visit, visit, hexcludes, Bool.not_false]
      cases lists location with
      | false => rfl
      | true =>
        rw [Bool.and_self, if_pos rfl, if_pos rfl, filter_flatMap_sortByName,
          filter_flatMap_sortByName, filter_visitAll haccept hjump hout (location :: stack) path
            location children hproper hpath hclosed]

theorem filter_visitAll (haccept : ∀ file, accept file = true → f.excludes file.path = false)
    (hjump : ∀ stack path, path ≠ "" → f.IsClosed path →
      (jump stack path).filter accept = (jump' stack path).filter accept)
    (hout : ∀ stack path, f.LeavesOut path → ∀ file ∈ jump' stack path, f.LeavesOut file.path)
    (stack : List Location) (path : String) (location : Location)
    (children : List (String × DiskNode)) (hproper : DiskNode.areProper children = true)
    (hpath : path ≠ "") (hclosed : f.IsClosed path) :
    (visitAll (fun path => !f.excludes path) lists jump stack path location children).map
        (fun entry => (entry.1, entry.2.filter accept)) =
      (visitAll (fun _ => true) lists jump' stack path location children).map
        fun entry => (entry.1, entry.2.filter accept) := by
  match children with
  | [] => rw [visitAll, visitAll]
  | (name, node) :: rest =>
    simp only [DiskNode.areProper, Bool.and_eq_true] at hproper
    obtain ⟨⟨⟨hname, _⟩, hnode⟩, hrest⟩ := hproper
    rw [visitAll, visitAll, List.map_cons, List.map_cons,
      filter_visit haccept hjump hout stack _ _ node hnode (Path.join_ne_empty hpath hname)
        (hclosed.join hpath hname),
      filter_visitAll haccept hjump hout stack path location rest hrest hpath hclosed]

end

theorem filter_walkPath {disk : Disk} (hproper : disk.root.isProper = true)
    (haccept : ∀ file, accept file = true → f.excludes file.path = false) (jumps : Nat)
    (stack : List Location) (path : String) (hclosed : f.IsClosed path) :
    (disk.walkPath (fun path => !f.excludes path) jumps stack path).filter accept =
      (disk.walkPath (fun _ => true) jumps stack path).filter accept := by
  induction jumps generalizing stack path with
  | zero => rfl
  | succ jumps ih =>
    rw [walkPath, walkPath]
    cases hfind : disk.find? path with
    | none => rfl
    | some found =>
      obtain ⟨location, node⟩ := found
      have hnode : node.isProper = true :=
        DiskNode.isProper_at? hproper (find?_eq_some_iff.mp hfind).2
      simp only
      split
      · rfl
      · refine filter_visit haccept (fun stack path _ => ih stack path) ?_ stack path location node
          hnode (ne_empty_of_find? hfind) hclosed
        exact fun stack path => path_of_mem_walkPath hproper
          (fun _ _ => FileFilter.LeavesOut.join) jumps stack path

/-- Not entering the directories that are left out changes nothing that is accepted. -/
theorem filter_walk {disk : Disk} (hproper : disk.root.isProper = true)
    (haccept : ∀ file, accept file = true → f.excludes file.path = false) {root : String}
    (hclosed : f.IsClosed root) :
    (disk.walk (fun path => !f.excludes path) root).filter accept =
      (disk.walk (fun _ => true) root).filter accept :=
  filter_walkPath hproper haccept _ _ root hclosed

end Filter

/-! ## Files below a root -/

/-- The place that a path leads to, if something is there. -/
def place? (disk : Disk) (path : String) : Option Location :=
  (disk.find? path).map Prod.fst

/-- Do two paths lead to the same place? -/
def samePlace (disk : Disk) (a b : String) : Bool :=
  disk.place? a == disk.place? b

/-- The first values of their keys are the values without those that are the same as an earlier one,
    if values are the same exactly when their keys are. -/
theorem firstPerKey_eq_eraseDupsBy {κ α : Type} [BEq κ] (same : α → α → Bool) (seen : List κ)
    (pairs : List (κ × α)) (hsame : ∀ p ∈ pairs, ∀ q ∈ pairs, same p.2 q.2 = (p.1 == q.1)) :
    firstPerKey seen pairs =
      ((pairs.filter fun pair => !seen.contains pair.1).map Prod.snd).eraseDupsBy same := by
  induction pairs generalizing seen with
  | nil => rfl
  | cons pair rest ih =>
    have hrest := fun seen => ih seen fun p hp q hq =>
      hsame p (List.mem_cons_of_mem _ hp) q (List.mem_cons_of_mem _ hq)
    obtain ⟨key, value⟩ := pair
    rw [firstPerKey, List.filter_cons]
    cases hseen : seen.contains key with
    | true =>
      rw [if_pos rfl, Bool.not_true, if_neg Bool.false_ne_true]
      exact hrest seen
    | false =>
      rw [if_neg Bool.false_ne_true, Bool.not_false, if_pos rfl, List.map_cons,
        List.eraseDupsBy_cons, List.filter_map, List.filter_filter, hrest (key :: seen)]
      congr 3
      refine List.filter_congr fun other hother => ?_
      have hkey : same other.2 value = (other.1 == key) :=
        hsame other (List.mem_cons_of_mem _ hother) (key, value) List.mem_cons_self
      rw [List.contains_cons, Bool.not_or, Function.comp_apply, hkey]
      cases other.1 == key <;> rfl

/-- The path of a walked file leads to the place that the walk noted. -/
theorem Resolves.place? {disk : Disk} {file : WalkedFile} (h : disk.Resolves file) :
    disk.place? file.path = some file.location := by
  obtain ⟨bytes, hfind, _⟩ := h
  rw [Disk.place?, hfind]
  rfl

theorem Resolves.samePlace {disk : Disk} {a b : WalkedFile} (ha : disk.Resolves a)
    (hb : disk.Resolves b) : disk.samePlace a.path b.path = (a.location == b.location) := by
  rw [Disk.samePlace, ha.place?, hb.place?]
  rfl

/-- A walked file is accepted for what its path leads to. -/
theorem Resolves.acceptsFile {disk : Disk} {file : WalkedFile} (h : disk.Resolves file)
    (filter : FileFilter) :
    disk.acceptsFile filter file.path = filter.accepts file.path file.size := by
  obtain ⟨bytes, hfind, hsize⟩ := h
  rw [Disk.acceptsFile, size?, hfind, hsize]
  rfl

/-- Of files that are where their paths lead, those with a new place are those with a new path. -/
theorem firstPerKey_location {disk : Disk} {files : List WalkedFile}
    (h : ∀ file ∈ files, disk.Resolves file) :
    firstPerKey [] (files.map fun file => (file.location, file.path)) =
      (files.map WalkedFile.path).eraseDupsBy disk.samePlace := by
  rw [firstPerKey_eq_eraseDupsBy disk.samePlace]
  · have hall : ∀ pairs : List (Location × String),
        (pairs.filter fun pair => !([] : List Location).contains pair.1) = pairs :=
      fun pairs => List.filter_eq_self.mpr fun _ _ => rfl
    rw [hall, List.map_map]
    rfl
  · intro p hp q hq
    obtain ⟨a, ha, rfl⟩ := List.mem_map.mp hp
    obtain ⟨b, hb, rfl⟩ := List.mem_map.mp hq
    exact (h a ha).samePlace (h b hb)

/-- The files below a root are those that a walk of everything gives after the fact: the files that
    the filter accepts by their paths, without those that an earlier path leads to. The root must be
    there. If it has no name, two slashes must not be among the parts that are left out. -/
theorem candidates_eq_filtered_walk (disk : Disk) (hproper : disk.root.isProper = true)
    (filter : FileFilter) (root : String) (hexists : disk.exists? root = true)
    (hroot : FileFilter.hasName root.toList = true ∨ "//" ∉ filter.excluded) :
    disk.candidates? filter root =
      .ok ((((disk.walk (fun _ => true) root).map WalkedFile.path).filter
        (disk.acceptsFile filter)).eraseDupsBy disk.samePlace) := by
  have hresolves : ∀ file ∈ disk.walk (fun _ => true) root, disk.Resolves file :=
    fun file hfile => resolves_of_mem_walk hproper hfile
  have hpruned : (disk.walk (fun path => !filter.excludes path) root).filter
        (fun file => filter.accepts file.path file.size) =
      (disk.walk (fun _ => true) root).filter fun file => disk.acceptsFile filter file.path := by
    have haccept : ∀ file : WalkedFile, filter.accepts file.path file.size = true →
        filter.excludes file.path = false := by
      intro file h
      rw [FileFilter.accepts, Bool.and_eq_true, Bool.and_eq_true, Bool.not_eq_true'] at h
      exact h.1.2
    rw [filter_walk hproper haccept hroot]
    exact List.filter_congr fun file hfile => ((hresolves file hfile).acceptsFile filter).symm
  rw [candidates?, if_pos hexists, candidates, hpruned, firstPerKey_location, List.filter_map]
  · rfl
  · exact fun file hfile => hresolves file (List.mem_of_mem_filter hfile)

/-- A disk with a directory that is left out and a link to it. -/
def linkedDisk : Disk where
  root := .dir [("app", .dir [("vendor", .dir [("x.php", .file [])]), ("a.php", .file []),
    ("lib", .link "vendor")])]
  cwd := []

/-- A filter that leaves out one directory. -/
def vendorFilter : FileFilter where
  extensions := ["php"]
  excluded := ["/vendor/"]
  maxFileSize := 1024

/-- A file below a directory that is left out counts under the path of a link. -/
theorem candidates_linkedDisk :
    linkedDisk.root.isProper = true ∧ linkedDisk.exists? "/app/" = true ∧
    FileFilter.hasName "/app/".toList = true ∧
    linkedDisk.candidates? vendorFilter "/app/" =
      .ok ((((linkedDisk.walk (fun _ => true) "/app/").map WalkedFile.path).filter
        (linkedDisk.acceptsFile vendorFilter)).eraseDupsBy linkedDisk.samePlace) := by
  have hproper : linkedDisk.root.isProper = true := by decide +kernel
  have hexists : linkedDisk.exists? "/app/" = true := by
    have hsegments : (Path.segments "/app/").map String.ofList = ["", "app", ""] := rfl
    simp [exists?, find?, locate, follow, hsegments, linkedDisk, DiskNode.at?, Path.isAbsolute,
      beginsWith]
  have hname : FileFilter.hasName "/app/".toList = true := by decide
  refine ⟨hproper, hexists, hname, ?_⟩
  exact candidates_eq_filtered_walk linkedDisk hproper vendorFilter "/app/" hexists (.inl hname)

/-! ## A root without a name -/

/-- A disk with a directory whose name is a backslash. -/
def backslashDisk : Disk where
  root := .dir [("\\", .dir [("a.php", .file [])])]
  cwd := []

/-- A filter that leaves out paths with two slashes in a row. -/
def slashesFilter : FileFilter where
  extensions := ["php"]
  excluded := ["//"]
  maxFileSize := 1024

theorem find?_backslashDisk :
    backslashDisk.find? "\\" = some (["\\"], .dir [("a.php", .file [])]) ∧
    backslashDisk.find? "\\/a.php" = some (["\\", "a.php"], .file []) := by
  have hroot : (Path.segments "\\").map String.ofList = ["\\"] := rfl
  have hfile : (Path.segments "\\/a.php").map String.ofList = ["\\", "a.php"] := rfl
  constructor
  · simp [find?, locate, follow, hroot, backslashDisk, DiskNode.at?, Path.isAbsolute, beginsWith]
  · simp [find?, locate, follow, hfile, backslashDisk, DiskNode.at?, Path.isAbsolute, beginsWith]

theorem walk_backslashDisk (enters : String → Bool) :
    backslashDisk.walk enters "\\" =
      if enters "\\" then [⟨"\\/a.php", ["\\", "a.php"], 0⟩] else [] := by
  have hjoin : Path.join "\\" "a.php" = "\\/a.php" := by decide
  rw [walk, walkPath, find?_backslashDisk.1]
  simp [visit, visitAll, sortByName, hjoin, lists, backslashDisk]

/-- A directory whose name is a backslash is there and is not a path of slashes. With two slashes
    left out it is not entered, although its file is accepted by its path. -/
theorem candidates_backslash_ne_filtered_walk :
    backslashDisk.root.isProper = true ∧ backslashDisk.exists? "\\" = true ∧
    ("\\".toList.all (· == '/')) = false ∧
    backslashDisk.candidates? slashesFilter "\\" = .ok [] ∧
    (((backslashDisk.walk (fun _ => true) "\\").map WalkedFile.path).filter
      (backslashDisk.acceptsFile slashesFilter)).eraseDupsBy backslashDisk.samePlace =
        ["\\/a.php"] := by
  have hexists : backslashDisk.exists? "\\" = true := by
    rw [exists?, find?_backslashDisk.1]
    rfl
  have hexcludes : slashesFilter.excludes "\\" = true := by decide
  have haccepts : backslashDisk.acceptsFile slashesFilter "\\/a.php" = true := by
    rw [acceptsFile, size?, find?_backslashDisk.2]
    decide +kernel
  refine ⟨by decide +kernel, hexists, by decide, ?_, ?_⟩
  · rw [candidates?, if_pos hexists, candidates, walk_backslashDisk, hexcludes]
    rfl
  · rw [walk_backslashDisk, if_pos rfl, List.map_singleton, List.filter_singleton, haccepts]
    rfl

end Disk

end CodeAudit
