import CodeAudit.Proofs.FirstPerKey
import CodeAudit.Walk.Files

/-!
# Walked files are where the walk met them

A walk builds the path of a file from the names on the way, and notes the place and the size of the
file as it passes. Resolving the path again, name by name and with its links followed from the
start, must lead to the same place.

Results:
* `follow_append`: names are followed one after the other.
* `find?_join`: below a directory, the path of an entry leads to the entry.
* `resolves_of_mem_walk`: the path of a walked file leads to the file, which has the size noted.
* `accepted_of_mem_candidates`: a file that is found below a root could be asked for by its path.
* `walkError?_eq_none_iff`: when the walk of a directory meets no error at the directory itself.
-/

namespace CodeAudit

open Text

/-! ## Names on a disk -/

/-- Can an entry of a directory have this name? -/
def Path.isName (name : String) : Bool :=
  name ≠ "" && name ≠ "." && name ≠ ".." && !name.toList.contains '/'

mutual

/-- Do the entries of every directory of a tree have names, and no two of them the same one? -/
def DiskNode.isProper : DiskNode → Bool
  | .dir children => DiskNode.areProper children
  | _ => true

/-- Do entries of a directory have names, no two of them the same one, and stand for such trees? -/
def DiskNode.areProper : List (String × DiskNode) → Bool
  | [] => true
  | (name, node) :: rest =>
    Path.isName name && (rest.lookup name).isNone && node.isProper && DiskNode.areProper rest

end

theorem DiskNode.areProper_mem {children : List (String × DiskNode)}
    (h : DiskNode.areProper children = true) {name : String} {node : DiskNode}
    (hm : (name, node) ∈ children) :
    Path.isName name = true ∧ children.lookup name = some node ∧ node.isProper = true := by
  induction children with
  | nil => cases hm
  | cons entry rest ih =>
    obtain ⟨first, child⟩ := entry
    simp only [DiskNode.areProper, Bool.and_eq_true] at h
    obtain ⟨⟨⟨hname, hfresh⟩, hchild⟩, hrest⟩ := h
    rcases List.mem_cons.mp hm with heq | hm
    · cases heq
      exact ⟨hname, by rw [List.lookup_cons, beq_self_eq_true], hchild⟩
    · obtain ⟨hn, hlookup, hproper⟩ := ih hrest hm
      have hne : name ≠ first := by
        intro heq
        rw [← heq, hlookup] at hfresh
        cases hfresh
      refine ⟨hn, ?_, hproper⟩
      rw [List.lookup_cons, beq_eq_false_iff_ne.mpr hne]
      exact hlookup

theorem DiskNode.at?_append (node : DiskNode) (here there : Location) :
    node.at? (here ++ there) = (node.at? here).bind fun child => child.at? there := by
  induction here generalizing node with
  | nil => rfl
  | cons name rest ih =>
    cases node with
    | file bytes => rfl
    | link target => rfl
    | dir children =>
      rw [List.cons_append, DiskNode.at?, DiskNode.at?]
      cases children.lookup name with
      | none => rfl
      | some child => exact ih child

/-- What stands at a place of a proper tree is proper. -/
theorem DiskNode.isProper_at? {node child : DiskNode} {here : Location}
    (h : node.isProper = true) (hat : node.at? here = some child) : child.isProper = true := by
  induction here generalizing node with
  | nil =>
    cases hat
    exact h
  | cons name rest ih =>
    cases node with
    | file bytes => cases hat
    | link target => cases hat
    | dir children =>
      rw [DiskNode.at?, Option.bind_eq_some_iff] at hat
      obtain ⟨next, hnext, hat⟩ := hat
      have hmem : (name, next) ∈ children := by
        obtain ⟨before, after, rfl, _⟩ := List.lookup_eq_some_iff.mp hnext
        exact List.mem_append_right _ List.mem_cons_self
      obtain ⟨_, _, hproper⟩ := areProper_mem h hmem
      exact ih hproper hat

/-! ## Paths below a directory -/

theorem splitAt_ne_nil (c : Char) (text : List Char) : splitAt c text ≠ [] := by
  cases text with
  | nil => simp [splitAt]
  | cons d rest =>
    rw [splitAt]
    by_cases hd : d = c
    · simp [hd]
    · rw [if_neg hd]
      split <;> simp

theorem splitAt_append_cons (c : Char) (before after : List Char) :
    splitAt c (before ++ c :: after) = splitAt c before ++ splitAt c after := by
  induction before with
  | nil => simp [splitAt]
  | cons d rest ih =>
    rw [List.cons_append, splitAt, splitAt]
    by_cases hd : d = c
    · rw [if_pos hd, if_pos hd, ih, List.cons_append]
    · rw [if_neg hd, if_neg hd, ih]
      cases hrest : splitAt c rest with
      | nil => exact absurd hrest (splitAt_ne_nil c rest)
      | cons piece pieces => rfl

theorem splitAt_of_notMem {c : Char} {text : List Char} (h : c ∉ text) :
    splitAt c text = [text] := by
  induction text with
  | nil => rfl
  | cons d rest ih =>
    rw [List.mem_cons, not_or] at h
    rw [splitAt, if_neg (Ne.symm h.1), ih h.2]

namespace Path

theorem notMem_of_isName {name : String} (h : isName name = true) : '/' ∉ name.toList := by
  simp only [isName, Bool.and_eq_true, Bool.not_eq_true', List.contains_eq_mem,
    decide_eq_false_iff_not] at h
  exact h.2

theorem ne_of_isName {name : String} (h : isName name = true) :
    name ≠ "" ∧ name ≠ "." ∧ name ≠ ".." := by
  simp only [isName, Bool.and_eq_true, decide_eq_true_eq, ne_eq] at h
  exact ⟨h.1.1.1, h.1.1.2, h.1.2⟩

theorem isAbsolute_of_isName {name : String} (h : isName name = true) :
    isAbsolute name = false := by
  have hslash := notMem_of_isName h
  rw [isAbsolute, beginsWith]
  cases hname : name.toList with
  | nil => rfl
  | cons c rest =>
    rw [hname, List.mem_cons, not_or] at hslash
    simp [List.isPrefixOf, hslash.1]

/-- The text of the path of an entry: a slash stands between the directory and the name. The
    directory may bring the slash. -/
theorem toList_join {dir name : String} (hdir : dir ≠ "") (hname : isName name = true) :
    ∃ before,
      (dir.toList = before ∨ dir.toList = before ++ ['/']) ∧
      (join dir name).toList = before ++ '/' :: name.toList := by
  have hempty : dir.isEmpty = false := by simpa using hdir
  rw [join, isAbsolute_of_isName hname, hempty]
  by_cases hslash : endsWith "/" dir.toList = true
  · obtain ⟨before, hbefore⟩ := List.isSuffixOf_iff_suffix.mp hslash
    refine ⟨before, .inr hbefore.symm, ?_⟩
    rw [if_neg (by simp), if_pos hslash, String.toList_append, ← hbefore]
    simp
  · refine ⟨dir.toList, .inl rfl, ?_⟩
    rw [if_neg (by simp), if_neg hslash, String.toList_append, String.toList_append]
    simp

theorem join_ne_empty {dir name : String} (hdir : dir ≠ "") (hname : isName name = true) :
    join dir name ≠ "" := by
  obtain ⟨before, _, hjoin⟩ := toList_join hdir hname
  intro h
  rw [h] at hjoin
  simp at hjoin

theorem isAbsolute_join {dir name : String} (hdir : dir ≠ "") (hname : isName name = true) :
    isAbsolute (join dir name) = isAbsolute dir := by
  obtain ⟨before, hbefore, hjoin⟩ := toList_join hdir hname
  rw [isAbsolute, isAbsolute, beginsWith, beginsWith, hjoin]
  rcases hbefore with h | h
  · cases before with
    | nil => exact absurd (String.toList_eq_nil_iff.mp h) hdir
    | cons c rest => rw [h]; rfl
  · rw [h]
    cases before with
    | nil => rfl
    | cons c rest => rfl

theorem segments_join {dir name : String} (hdir : dir ≠ "") (hname : isName name = true) :
    ∃ first,
      (segments dir = first ∨ segments dir = first ++ [[]]) ∧
      segments (join dir name) = first ++ [name.toList] := by
  obtain ⟨before, hbefore, hjoin⟩ := toList_join hdir hname
  refine ⟨splitAt '/' before, ?_, ?_⟩
  · rcases hbefore with h | h
    · left
      rw [segments, h]
    · right
      rw [segments, h, splitAt_append_cons]
      rfl
  · rw [segments, hjoin, splitAt_append_cons, splitAt_of_notMem (notMem_of_isName hname)]

end Path

namespace Disk

/-! ## Following names -/

/-- Names are followed one after the other: after the first ones there is an error, or a place from
    which the others are followed. -/
theorem follow_append (root : DiskNode) (links : Nat) (here : Location) (first : List String) :
    (∃ e, ∀ others, follow root false links here (first ++ others) = .error e) ∨
      ∃ left there, ∀ others,
        follow root false links here (first ++ others) = follow root false left there others := by
  fun_induction follow root false links here first with
  | case1 links here => exact .inr ⟨links, here, fun _ => rfl⟩
  | case2 links here name rest children hat hskip ih =>
    simp only [List.cons_append, follow, hat, hskip, if_true]
    exact ih
  | case3 links here rest children hat hskip ih =>
    simp only [List.cons_append, follow, hat, hskip, if_true]
    exact ih
  | case4 links here name rest children hat hskip hup hlookup hcreates => cases hcreates
  | case5 links here name rest children hat hskip hup hlookup hcreates =>
    left
    refine ⟨.notFound, fun others => ?_⟩
    simp only [List.cons_append, follow, hat, hskip, hup, hlookup, Bool.false_and]
    rfl
  | case6 here name rest children hat hskip hup target hlookup =>
    left
    refine ⟨.tooManyLinks, fun others => ?_⟩
    simp only [List.cons_append, follow, hat, hskip, hup, hlookup]
    rfl
  | case7 here name rest children hat hskip hup target hlookup links ih =>
    simp only [List.append_assoc, dite_eq_ite] at ih
    simp only [List.cons_append, follow, hat, hskip, hup, hlookup, Bool.false_eq_true, if_false]
    exact ih
  | case8 links here name rest children hat hskip hup child hlink hlookup ih =>
    have hstep : ∀ others, follow root false links here (name :: rest ++ others) =
        follow root false links (here ++ [name]) (rest ++ others) := by
      intro others
      simp only [List.cons_append, follow, hat, hskip, hup, hlookup]
      cases child with
      | link target => exact absurd rfl (hlink target)
      | file bytes => rfl
      | dir children => rfl
    simp only [hstep]
    exact ih
  | case9 links here name rest hat =>
    left
    refine ⟨.notDirectory, fun others => ?_⟩
    rw [List.cons_append, follow]
    split
    · rename_i children hdir
      exact absurd hdir (hat children)
    · rfl

/-- A slash at the end of a path leads no further. -/
theorem follow_end {root : DiskNode} {links : Nat} {here there : Location} {tail : List String}
    (htail : tail = [] ∨ tail = [""]) (h : follow root false links here tail = .ok there) :
    here = there := by
  rcases htail with rfl | rfl
  · rw [follow] at h
    exact Except.ok.inj h
  · rw [follow] at h
    split at h
    · rw [if_pos (by decide), follow] at h
      exact Except.ok.inj h
    · cases h

/-- A name of a directory that stands for no link leads to the place below the directory. -/
theorem follow_name {root : DiskNode} {links : Nat} {here : Location} {name : String}
    {children : List (String × DiskNode)} {child : DiskNode}
    (hat : root.at? here = some (.dir children)) (hname : Path.isName name = true)
    (hlookup : children.lookup name = some child) (hlink : ∀ target, child ≠ .link target) :
    follow root false links here [name] = .ok (here ++ [name]) := by
  obtain ⟨hempty, hdot, hup⟩ := Path.ne_of_isName hname
  rw [follow, hat]
  simp only [hempty, hdot, hup, hlookup, decide_false, Bool.or_self, Bool.false_eq_true, if_false]
  cases child with
  | link target => exact absurd rfl (hlink target)
  | file bytes => rw [follow]
  | dir children => rw [follow]

theorem find?_eq_some_iff {disk : Disk} {path : String} {location : Location} {node : DiskNode} :
    disk.find? path = some (location, node) ↔
      disk.locate path false = .ok location ∧ disk.root.at? location = some node := by
  rw [find?]
  cases disk.locate path false with
  | error e => simp
  | ok place =>
    simp only [Option.map_eq_some_iff, Prod.mk.injEq, Except.ok.injEq]
    constructor
    · rintro ⟨node, hat, rfl, rfl⟩
      exact ⟨rfl, hat⟩
    · rintro ⟨rfl, hat⟩
      exact ⟨node, hat, rfl, rfl⟩

/-- The place of a path is on the way to the names below it. -/
theorem locate_join {disk : Disk} {path name : String} {location : Location}
    (hloc : disk.locate path false = .ok location) (hname : Path.isName name = true) :
    ∃ links, disk.locate (Path.join path name) false =
      follow disk.root false links location [name] := by
  have hpath : path ≠ "" := by
    intro h
    rw [locate, if_pos h] at hloc
    cases hloc
  obtain ⟨first, hfirst, hjoin⟩ := Path.segments_join hpath hname
  rw [locate, if_neg hpath] at hloc
  rw [locate, if_neg (Path.join_ne_empty hpath hname), Path.isAbsolute_join hpath hname, hjoin,
    List.map_append, List.map_singleton, String.ofList_toList]
  obtain ⟨tail, htail, hsegments⟩ : ∃ tail, (tail = [] ∨ tail = [""]) ∧
      (Path.segments path).map String.ofList = first.map String.ofList ++ tail := by
    rcases hfirst with h | h
    · exact ⟨[], .inl rfl, by rw [h, List.append_nil]⟩
    · exact ⟨[""], .inr rfl, by rw [h, List.map_append]; rfl⟩
  rw [hsegments] at hloc
  rcases follow_append disk.root maxLinks (if Path.isAbsolute path then [] else disk.cwd)
    (first.map String.ofList) with ⟨e, herror⟩ | ⟨left, there, hthere⟩
  · rw [herror] at hloc
    cases hloc
  · rw [hthere] at hloc
    exact ⟨left, by rw [hthere, follow_end htail hloc]⟩

/-- Below a directory, the path of an entry leads to the entry, unless that is a link. -/
theorem find?_join {disk : Disk} {path name : String} {location : Location}
    {children : List (String × DiskNode)} {child : DiskNode}
    (hfind : disk.find? path = some (location, .dir children)) (hname : Path.isName name = true)
    (hlookup : children.lookup name = some child) (hlink : ∀ target, child ≠ .link target) :
    disk.find? (Path.join path name) = some (location ++ [name], child) := by
  obtain ⟨hloc, hat⟩ := find?_eq_some_iff.mp hfind
  obtain ⟨links, hjoin⟩ := locate_join hloc hname
  refine find?_eq_some_iff.mpr ⟨?_, ?_⟩
  · rw [hjoin, follow_name hat hname hlookup hlink]
  · rw [DiskNode.at?_append, hat, Option.bind_some, DiskNode.at?, hlookup]
    rfl

/-! ## Walks -/

/-- Does the path of a walked file lead to its place, and is a file of its size there? -/
def Resolves (disk : Disk) (file : WalkedFile) : Prop :=
  ∃ bytes, disk.find? file.path = some (file.location, .file bytes) ∧ file.size = bytes.length

/-- Does a path lead to a node at a place, or does a link stand there? -/
def LeadsTo (disk : Disk) (path : String) (location : Location) (node : DiskNode) : Prop :=
  (∃ target, node = .link target) ∨ disk.find? path = some (location, node)

theorem leadsTo_join {disk : Disk} (hproper : disk.root.isProper = true) {path : String}
    {location : Location} {children : List (String × DiskNode)}
    (hfind : disk.find? path = some (location, .dir children)) {name : String} {child : DiskNode}
    (hm : (name, child) ∈ children) :
    disk.LeadsTo (Path.join path name) (location ++ [name]) child := by
  have hchildren : DiskNode.areProper children = true :=
    DiskNode.isProper_at? hproper (find?_eq_some_iff.mp hfind).2
  obtain ⟨hname, hlookup, _⟩ := DiskNode.areProper_mem hchildren hm
  by_cases hlink : ∃ target, child = .link target
  · exact .inl hlink
  · exact .inr (find?_join hfind hname hlookup fun target h => hlink ⟨target, h⟩)

section Walk

variable {disk : Disk} {enters : String → Bool} {lists : Location → Bool}
  {jump : List Location → String → List WalkedFile}

mutual

theorem resolves_of_mem_visit (hproper : disk.root.isProper = true)
    (hjump : ∀ stack path, ∀ file ∈ jump stack path, disk.Resolves file)
    (stack : List Location) (path : String) (location : Location) (node : DiskNode)
    (hleads : disk.LeadsTo path location node) :
    ∀ file ∈ visit enters lists jump stack path location node, disk.Resolves file := by
  intro file hfile
  match node, hleads with
  | .link target, _ =>
    rw [visit] at hfile
    exact hjump stack path file hfile
  | .file bytes, .inr hfind =>
    rw [visit, List.mem_singleton] at hfile
    rw [hfile]
    exact ⟨bytes, hfind, rfl⟩
  | .dir children, .inr hfind =>
    rw [visit] at hfile
    split at hfile
    · obtain ⟨entry, hentry, hfile⟩ := List.mem_flatMap.mp hfile
      rw [sortByName, List.mem_mergeSort] at hentry
      exact resolves_of_mem_visitAll hproper hjump (location :: stack) path location children
        (fun name child hm => leadsTo_join hproper hfind hm) entry hentry file hfile
    · cases hfile

theorem resolves_of_mem_visitAll (hproper : disk.root.isProper = true)
    (hjump : ∀ stack path, ∀ file ∈ jump stack path, disk.Resolves file)
    (stack : List Location) (path : String) (location : Location)
    (children : List (String × DiskNode))
    (hleads : ∀ name child, (name, child) ∈ children →
      disk.LeadsTo (Path.join path name) (location ++ [name]) child) :
    ∀ entry ∈ visitAll enters lists jump stack path location children, ∀ file ∈ entry.2,
      disk.Resolves file := by
  intro entry hentry file hfile
  match children with
  | [] =>
    rw [visitAll] at hentry
    cases hentry
  | (name, node) :: rest =>
    rw [visitAll] at hentry
    rcases List.mem_cons.mp hentry with rfl | hentry
    · exact resolves_of_mem_visit hproper hjump stack _ _ node
        (hleads name node List.mem_cons_self) file hfile
    · exact resolves_of_mem_visitAll hproper hjump stack path location rest
        (fun name child hm => hleads name child (List.mem_cons_of_mem _ hm)) entry hentry file hfile

end

end Walk

theorem resolves_of_mem_walkPath {disk : Disk} (hproper : disk.root.isProper = true)
    {enters : String → Bool} (jumps : Nat) (stack : List Location) (path : String) :
    ∀ file ∈ disk.walkPath enters jumps stack path, disk.Resolves file := by
  induction jumps generalizing stack path with
  | zero =>
    intro file hfile
    cases hfile
  | succ jumps ih =>
    intro file hfile
    rw [walkPath] at hfile
    split at hfile
    · cases hfile
    · rename_i location node hfind
      split at hfile
      · cases hfile
      · exact resolves_of_mem_visit hproper ih stack path location node (.inr hfind) file hfile

/-- The path of a walked file leads to the file, which has the size that the walk noted. -/
theorem resolves_of_mem_walk {disk : Disk} (hproper : disk.root.isProper = true)
    {enters : String → Bool} {root : String} {file : WalkedFile}
    (h : file ∈ disk.walk enters root) : disk.Resolves file :=
  resolves_of_mem_walkPath hproper _ _ _ file h

/-! ## Files below a root -/

/-- A file that is found below a root is a file that could be asked for by its path. -/
theorem accepted_of_mem_candidates {disk : Disk} (hproper : disk.root.isProper = true)
    {filter : FileFilter} {root path : String} (h : path ∈ disk.candidates filter root) :
    disk.exists? path = true ∧ disk.isFile path = true ∧ disk.acceptsFile filter path = true := by
  obtain ⟨location, hm⟩ := mem_of_mem_firstPerKey h
  obtain ⟨file, hfile, heq⟩ := List.mem_map.mp hm
  obtain ⟨hwalk, haccepts⟩ := List.mem_filter.mp hfile
  cases heq
  obtain ⟨bytes, hfind, hsize⟩ := resolves_of_mem_walk hproper hwalk
  refine ⟨?_, ?_, ?_⟩
  · rw [exists?, hfind]
    rfl
  · rw [isFile, hfind]
  · rw [acceptsFile, size?, hfind]
    rw [hsize] at haccepts
    exact haccepts

/-! ## Roots that can be listed -/

section Collect

variable {disk : Disk} {filter : FileFilter} {root : String}

theorem exists?_of_isDir (h : disk.isDir root = true) : disk.exists? root = true := by
  rw [isDir] at h
  rw [exists?]
  cases hfind : disk.find? root with
  | none => rw [hfind] at h; cases h
  | some found => rfl

theorem isDir_of_walkError? {e : ScanError} (h : disk.walkError? filter root = some e) :
    disk.isDir root = true := by
  rw [walkError?] at h
  split at h
  · rename_i hfind
    rw [isDir, hfind]
  · cases h

theorem lists_eq_true (h : disk.unlistable = []) (location : Location) :
    disk.lists location = true := by
  rw [lists, h]
  rfl

/-- Where every directory can be listed, no walk fails at its root. -/
theorem walkError?_eq_none (h : disk.unlistable = []) (filter : FileFilter) (root : String) :
    disk.walkError? filter root = none := by
  rw [walkError?]
  split
  · rw [if_pos (lists_eq_true h _)]
  · rfl

theorem collect?_of_none (hwalk : disk.walkError? filter root = none) :
    disk.collect? filter root = disk.candidates? filter root := by
  rw [collect?, hwalk]
  cases disk.candidates? filter root <;> rfl

/-- All files below a root are collected if its walk meets no error. -/
theorem collect?_of_listed (hexists : disk.exists? root = true)
    (hwalk : disk.walkError? filter root = none) :
    disk.collect? filter root = .ok (disk.candidates filter root) := by
  rw [collect?_of_none hwalk, candidates?, if_pos hexists]

/-- The error of a walk at its root is the error of collecting its files. -/
theorem collect?_of_walkError? {e : ScanError} (h : disk.walkError? filter root = some e) :
    disk.collect? filter root = .error e := by
  rw [collect?, candidates?, if_pos (exists?_of_isDir (isDir_of_walkError? h)), h]
  rfl

theorem eq_candidates_of_ok {files : List String} (h : disk.candidates? filter root = .ok files) :
    files = disk.candidates filter root := by
  rw [candidates?] at h
  split at h
  · exact (Except.ok.inj h).symm
  · cases h

theorem candidates?_of_collect? {files : List String}
    (h : disk.collect? filter root = .ok files) : disk.candidates? filter root = .ok files := by
  cases hwalk : disk.walkError? filter root with
  | some e =>
    rw [collect?_of_walkError? hwalk] at h
    cases h
  | none => rwa [collect?_of_none hwalk] at h

/-- A directory is listed by a walk, or the walk is kept from it: it is given by its own name and
    left out. -/
theorem walkError?_eq_none_iff {location : Location} {children : List (String × DiskNode)}
    (hfind : disk.find? root = some (location, .dir children)) :
    disk.walkError? filter root = none ↔
      disk.lists location = true ∨ disk.isLink root = false ∧ filter.excludes root = true := by
  rw [walkError?, hfind]
  dsimp only
  cases disk.lists location <;> cases disk.isLink root <;> cases filter.excludes root <;> simp

end Collect

end Disk

end CodeAudit
