import CodeAudit.Proofs.WalkedFiles
import Mathlib.Data.Finset.Card

/-!
# How many links a walk follows

A walk keeps the directories that it is in, and passes over a link that leads to one of them. So
every link that it follows to a directory adds a directory to those that it is in, and there are no
more such links on the way to a file than there are directories on the disk. The bound that `walk`
puts on them cuts nothing off.

Results:
* `length_dirLocations`, `mem_dirLocations_of_at?`: the places of the directories of a tree.
* `visitAll_congr`: what is visited below a directory depends on jumps from inside of it only.
* `walkPath_eq_walk`: more jumps than `walk` allows meet the same files.
-/

namespace CodeAudit

/-! ## Places of directories -/

namespace DiskNode

mutual

/-- The places of the directories of a tree that stands at a place. -/
def dirLocations (here : Location) : DiskNode → List Location
  | dir children => here :: dirLocationsAll here children
  | _ => []

/-- The places of the directories below a directory. -/
def dirLocationsAll (here : Location) : List (String × DiskNode) → List Location
  | [] => []
  | (name, node) :: rest => dirLocations (here ++ [name]) node ++ dirLocationsAll here rest

end

mutual

theorem length_dirLocations (here : Location) (node : DiskNode) :
    (dirLocations here node).length = node.dirCount := by
  match node with
  | .file bytes => rfl
  | .link target => rfl
  | .dir children =>
    rw [dirLocations, dirCount, List.length_cons, length_dirLocationsAll here children]

theorem length_dirLocationsAll (here : Location) (children : List (String × DiskNode)) :
    (dirLocationsAll here children).length = dirCountAll children := by
  match children with
  | [] => rfl
  | (name, node) :: rest =>
    rw [dirLocationsAll, dirCountAll, List.length_append, length_dirLocations _ node,
      length_dirLocationsAll here rest]

end

theorem dirLocations_subset {here : Location} {name : String} {node : DiskNode}
    {children : List (String × DiskNode)} (h : (name, node) ∈ children) :
    dirLocations (here ++ [name]) node ⊆ dirLocationsAll here children := by
  induction children with
  | nil => cases h
  | cons entry rest ih =>
    rw [dirLocationsAll]
    rcases List.mem_cons.mp h with rfl | hrest
    · exact List.subset_append_left _ _
    · exact List.Subset.trans (ih hrest) (List.subset_append_right _ _)

theorem mem_dirLocations_of_at? {node : DiskNode} {location : Location}
    {children : List (String × DiskNode)} (h : node.at? location = some (.dir children))
    (here : Location) : here ++ location ∈ dirLocations here node := by
  induction location generalizing node here with
  | nil =>
    cases h
    rw [List.append_nil, dirLocations]
    exact List.mem_cons_self
  | cons name rest ih =>
    cases node with
    | file bytes => cases h
    | link target => cases h
    | dir entries =>
      rw [at?] at h
      obtain ⟨child, hchild, hrest⟩ := Option.bind_eq_some_iff.mp h
      obtain ⟨before, after, rfl, -⟩ := List.lookup_eq_some_iff.mp hchild
      have hmem : (name, child) ∈ before ++ (name, child) :: after :=
        List.mem_append_right _ List.mem_cons_self
      have hbelow := ih hrest (here ++ [name])
      rw [List.append_assoc, List.singleton_append] at hbelow
      rw [dirLocations]
      exact List.mem_cons_of_mem _ (dirLocations_subset hmem hbelow)

end DiskNode

/-! ## Jumps -/

namespace Disk

section Congr

variable {enters : String → Bool} {lists : Location → Bool}
  {jump jump' : List Location → String → List WalkedFile}

mutual

theorem visit_congr {stack : List Location}
    (hjump : ∀ stack', stack ⊆ stack' → jump stack' = jump' stack') (path : String)
    (location : Location) (node : DiskNode) :
    visit enters lists jump stack path location node =
      visit enters lists jump' stack path location node := by
  match node with
  | .file bytes => rw [visit, visit]
  | .link target => rw [visit, visit, hjump stack (List.Subset.refl _)]
  | .dir children =>
    have hbelow : ∀ stack', location :: stack ⊆ stack' → jump stack' = jump' stack' :=
      fun stack' hstack => hjump stack' (List.Subset.trans (List.subset_cons_self _ _) hstack)
    rw [visit, visit, visitAll_congr hbelow]

/-- What is visited below a directory depends on what is met from inside of it only. -/
theorem visitAll_congr {stack : List Location}
    (hjump : ∀ stack', stack ⊆ stack' → jump stack' = jump' stack') (path : String)
    (location : Location) (children : List (String × DiskNode)) :
    visitAll enters lists jump stack path location children =
      visitAll enters lists jump' stack path location children := by
  match children with
  | [] => rw [visitAll, visitAll]
  | (name, node) :: rest =>
    rw [visitAll, visitAll, visit_congr hjump _ _ node, visitAll_congr hjump _ _ rest]

end

end Congr

variable {disk : Disk} {enters : String → Bool}

/-- A path that leads to a link, as it may from a current directory that is one, meets nothing. -/
theorem walkPath_of_link {path target : String} {location : Location}
    (hfind : disk.find? path = some (location, .link target)) (jumps : Nat)
    (stack : List Location) : disk.walkPath enters jumps stack path = [] := by
  induction jumps with
  | zero => rfl
  | succ jumps ih =>
    rw [walkPath, hfind]
    dsimp only
    split
    · rfl
    · rw [visit, ih]

/-- The directories of a disk that are not being walked. -/
def unvisited (disk : Disk) (stack : List Location) : Finset Location :=
  (DiskNode.dirLocations [] disk.root).toFinset \ stack.toFinset

theorem card_unvisited_le (disk : Disk) (stack : List Location) :
    (disk.unvisited stack).card ≤ disk.root.dirCount := by
  rw [← DiskNode.length_dirLocations []]
  exact (Finset.card_le_card Finset.sdiff_subset).trans (List.toFinset_card_le _)

theorem card_unvisited_mono (disk : Disk) {stack stack' : List Location} (h : stack ⊆ stack') :
    (disk.unvisited stack').card ≤ (disk.unvisited stack).card := by
  refine Finset.card_le_card (Finset.sdiff_subset_sdiff (Finset.Subset.refl _) ?_)
  exact fun location hlocation => List.mem_toFinset.mpr (h (List.mem_toFinset.mp hlocation))

/-- Entering a directory leaves one directory less. -/
theorem card_unvisited_cons_lt {path : String} {location : Location} {stack : List Location}
    {children : List (String × DiskNode)}
    (hfind : disk.find? path = some (location, .dir children)) (hnew : location ∉ stack) :
    (disk.unvisited (location :: stack)).card < (disk.unvisited stack).card := by
  have hplace := DiskNode.mem_dirLocations_of_at? (find?_eq_some_iff.mp hfind).2 []
  rw [List.nil_append] at hplace
  have hmem : location ∈ disk.unvisited stack :=
    Finset.mem_sdiff.mpr ⟨List.mem_toFinset.mpr hplace, mt List.mem_toFinset.mp hnew⟩
  rw [unvisited, List.toFinset_cons, Finset.sdiff_insert]
  exact Finset.card_erase_lt_of_mem hmem

/-- With more jumps than there are directories left, the number of jumps does not matter. -/
theorem walkPath_eq_of_le {few many : Nat} {stack : List Location} (path : String)
    (henough : (disk.unvisited stack).card < few) (hle : few ≤ many) :
    disk.walkPath enters few stack path = disk.walkPath enters many stack path := by
  -- a jump to a directory leaves one jump less and one directory less
  induction few generalizing many stack path with
  | zero => omega
  | succ few ih =>
    obtain ⟨many, rfl⟩ : ∃ rest, many = rest + 1 := ⟨many - 1, by omega⟩
    cases hfind : disk.find? path with
    | none => rw [walkPath, walkPath, hfind]
    | some found =>
      obtain ⟨location, node⟩ := found
      cases node with
      | link target => rw [walkPath_of_link hfind, walkPath_of_link hfind]
      | file bytes =>
        rw [walkPath, walkPath, hfind]
        dsimp only
        rw [visit, visit]
      | dir children =>
        rw [walkPath, walkPath, hfind]
        dsimp only
        split
        · rfl
        · rename_i hnew
          have hless := card_unvisited_cons_lt hfind fun hmem =>
            hnew (List.contains_iff_mem.mpr hmem)
          have hjumps : ∀ stack', location :: stack ⊆ stack' →
              disk.walkPath enters few stack' = disk.walkPath enters many stack' := by
            intro stack' hstack
            funext path'
            have hmono := card_unvisited_mono disk hstack
            exact ih path' (by omega) (by omega)
          rw [visit, visit, visitAll_congr hjumps]

/-- The bound on the links that a walk follows cuts nothing off: with more jumps it meets the same
    files. -/
theorem walkPath_eq_walk (root : String) {jumps : Nat} (h : disk.root.dirCount < jumps) :
    disk.walkPath enters jumps [] root = disk.walk enters root := by
  have hcard := card_unvisited_le disk []
  exact (walkPath_eq_of_le root (by omega) h).symm

end Disk

end CodeAudit
