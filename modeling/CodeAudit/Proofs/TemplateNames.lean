import CodeAudit.Proofs.WalkedFiles
import CodeAudit.Source.Kind
import CodeAudit.Source.Role

/-!
# When a file is a template

Two parts of an analysis decide from the path of a file whether it is a template. The kind of a
source looks at the last name of the path, whatever its case. The role of a file looks at the end of
the path as it is written. A template by its role is one by its kind. The other way round this
fails for a name with capitals in its ending, and for a path that goes on after its last name.

Results:
* `Path.exists_of_getLast?_names`: where the last name of a path stands.
* `SourceKind.ofPath_eq_blade_iff`: which paths are those of templates by their kind.
* `Role.classify_eq_view_iff`: which files are templates by their role.
* `templates_agree_iff`: when the two agree.
* `capital_ending_disagrees`: a path on which they do not.
-/

namespace CodeAudit

open Text

/-- How the name of a template ends. -/
def templateEnding : List Char := ".blade.php".toList

/-! ## The last name of a path -/

namespace Path

/-- What may follow the last name of a path: slashes, each of them with a dot or without. -/
inductive Idle : List Char → Prop where
  | nil : Idle []
  | slash {tail : List Char} : Idle tail → Idle (tail ++ ['/'])
  | dot {tail : List Char} : Idle tail → Idle (tail ++ ['/', '.'])

/-- Does a segment name something? -/
def isNaming (segment : List Char) : Bool :=
  !segment.isEmpty && segment ≠ ['.']

theorem isNaming_eq_false_iff {segment : List Char} :
    isNaming segment = false ↔ segment = [] ∨ segment = ['.'] := by
  cases segment with
  | nil => simp [isNaming]
  | cons c rest => simp [isNaming]

theorem slash_split (text : List Char) :
    '/' ∉ text ∨ ∃ front last, text = front ++ '/' :: last ∧ '/' ∉ last := by
  by_cases hslash : '/' ∈ text
  · right
    obtain ⟨last, front, hreverse, hlast⟩ :=
      List.eq_append_cons_of_mem (List.mem_reverse.mpr hslash)
    refine ⟨front.reverse, last.reverse, ?_, mt List.mem_reverse.mp hlast⟩
    rw [← List.reverse_reverse text, hreverse, List.reverse_append, List.reverse_cons,
      List.append_assoc, List.singleton_append]
  · exact .inl hslash

/-- The names of a path, taken apart at a slash. -/
theorem filter_splitAt_append {front last : List Char} (hlast : '/' ∉ last) :
    (splitAt '/' (front ++ '/' :: last)).filter isNaming =
      (splitAt '/' front).filter isNaming ++ [last].filter isNaming := by
  rw [splitAt_append_cons, splitAt_of_notMem hlast, List.filter_append]

theorem filter_splitAt_idle (text : List Char) {tail : List Char} (htail : Idle tail) :
    (splitAt '/' (text ++ tail)).filter isNaming = (splitAt '/' text).filter isNaming := by
  induction htail with
  | nil => rw [List.append_nil]
  | slash _ ih =>
    rw [← List.append_assoc, filter_splitAt_append (by decide), ih]
    exact List.append_nil _
  | dot _ ih =>
    rw [← List.append_assoc, filter_splitAt_append (by decide), ih]
    exact List.append_nil _

/-- A path ends in its last name and in what names nothing. -/
theorem exists_of_getLast?_names {text name : List Char}
    (h : ((splitAt '/' text).filter isNaming).getLast? = some name) :
    ∃ front tail, text = front ++ (name ++ tail) ∧ Idle tail := by
  rcases slash_split text with hslash | ⟨front, last, htext, hlast⟩
  · rw [splitAt_of_notMem hslash] at h
    have hname := List.mem_of_getLast? h
    rw [List.mem_filter, List.mem_singleton] at hname
    exact ⟨[], [], by rw [hname.1, List.append_nil, List.nil_append], .nil⟩
  · rw [htext, filter_splitAt_append hlast] at h
    cases hnaming : isNaming last with
    | true =>
      rw [List.filter_cons_of_pos hnaming, List.filter_nil, List.getLast?_concat] at h
      cases h
      exact ⟨front ++ ['/'], [], by rw [htext]; simp, .nil⟩
    | false =>
      rw [List.filter_cons_of_neg (Bool.not_eq_true _ ▸ hnaming), List.filter_nil,
        List.append_nil] at h
      have hshorter : front.length < text.length := by
        rw [htext, List.length_append, List.length_cons]
        omega
      obtain ⟨before, tail, rfl, htail⟩ := exists_of_getLast?_names h
      refine ⟨before, tail ++ '/' :: last, by simp only [htext, List.append_assoc], ?_⟩
      rcases isNaming_eq_false_iff.mp hnaming with rfl | rfl
      · exact htail.slash
      · exact htail.dot
termination_by text.length

theorem fileName?_eq_some_iff {path : String} {name : List Char} :
    fileName? path = some name ↔ (names path).getLast? = some name ∧ name ≠ ['.', '.'] := by
  rw [fileName?]
  split
  · rename_i hnone
    simp [hnone]
  · rename_i last hlast
    rw [hlast]
    split
    · rename_i hdots
      subst hdots
      simp [eq_comm]
    · rename_i hdots
      constructor
      · intro h
        cases h
        exact ⟨rfl, hdots⟩
      · exact fun h => h.1

end Path

/-! ## The kind of a source -/

theorem slash_notMem_of_lowerAscii {ending : List Char}
    (h : lowerAscii ending = templateEnding) : '/' ∉ ending := by
  intro hslash
  have hlower : '/' ∈ lowerAscii ending := List.mem_map.mpr ⟨'/', hslash, rfl⟩
  rw [h] at hlower
  exact absurd hlower (by decide)

theorem length_of_lowerAscii {ending : List Char} (h : lowerAscii ending = templateEnding) :
    ending.length = 10 := by
  have hlength := congrArg List.length h
  rw [lowerAscii, List.length_map] at hlength
  exact hlength.trans (by decide)

/-- The last segment of a text that ends like a template names a file. -/
theorem getLast?_names_of_ending {ending : List Char} (h : lowerAscii ending = templateEnding)
    (front : List Char) :
    ∃ stem, ((splitAt '/' (front ++ ending)).filter Path.isNaming).getLast? =
      some (stem ++ ending) := by
  have hending := slash_notMem_of_lowerAscii h
  have hnaming : ∀ stem : List Char, Path.isNaming (stem ++ ending) = true := by
    intro stem
    rw [← Bool.not_eq_false, Path.isNaming_eq_false_iff]
    have hlength := length_of_lowerAscii h
    rintro (hshort | hshort) <;>
    · have := congrArg List.length hshort
      simp only [List.length_append, List.length_nil, List.length_cons] at this
      omega
  rcases Path.slash_split front with hslash | ⟨before, last, rfl, hlast⟩
  · refine ⟨front, ?_⟩
    rw [splitAt_of_notMem (by simp [hslash, hending]), List.filter_cons_of_pos (hnaming front)]
    rfl
  · refine ⟨last, ?_⟩
    rw [List.append_assoc, List.cons_append, Path.filter_splitAt_append (by simp [hlast, hending]),
      List.filter_cons_of_pos (hnaming last), List.filter_nil, List.getLast?_concat]

/-- By its kind, a template is a path whose last name ends in the ending, whatever its case. -/
theorem SourceKind.ofPath_eq_blade_iff (path : String) :
    ofPath path = .blade ↔ ∃ front ending tail, path.toList = front ++ (ending ++ tail) ∧
      lowerAscii ending = templateEnding ∧ Path.Idle tail := by
  have hkind : ofPath path = .blade ↔
      templateEnding <:+ lowerAscii ((Path.fileName? path).getD []) := by
    rw [ofPath, ← List.isSuffixOf_iff_suffix]
    split
    · rename_i h
      exact iff_of_true rfl h
    · rename_i h
      exact iff_of_false SourceKind.noConfusion h
  rw [hkind]
  constructor
  · intro hending
    rw [lowerAscii, List.suffix_map_iff] at hending
    obtain ⟨ending, ⟨stem, hstem⟩, hlower⟩ := hending
    cases hname : Path.fileName? path with
    | none =>
      rw [hname, Option.getD_none, List.append_eq_nil_iff] at hstem
      rw [hstem.2] at hlower
      cases hlower
    | some name =>
      rw [hname, Option.getD_some] at hstem
      obtain ⟨front, tail, hpath, htail⟩ :=
        Path.exists_of_getLast?_names (Path.fileName?_eq_some_iff.mp hname).1
      exact ⟨front ++ stem, ending, tail, by rw [hpath, ← hstem]; simp, hlower.symm, htail⟩
  · rintro ⟨front, ending, tail, hpath, hlower, htail⟩
    obtain ⟨stem, hlast⟩ := getLast?_names_of_ending hlower front
    rw [← Path.filter_splitAt_idle _ htail, List.append_assoc, ← hpath] at hlast
    have hname : Path.fileName? path = some (stem ++ ending) := by
      refine Path.fileName?_eq_some_iff.mpr ⟨hlast, fun hdots => ?_⟩
      have hshort := congrArg List.length hdots
      rw [List.length_append, length_of_lowerAscii hlower, List.length_cons, List.length_singleton]
        at hshort
      omega
    rw [hname, Option.getD_some, lowerAscii, List.map_append]
    exact ⟨_, congrArg _ hlower.symm⟩

/-! ## The role of a file -/

namespace Role

theorem ofBase?_ne_view (base : List Char) : ofBase? base ≠ some .view := by
  fun_cases ofBase? base <;> simp

theorem ofDirectories_ne_view (path : List Char) : ofDirectories path ≠ .view := by
  have hroles : ∀ entry ∈ directories, entry.2 ≠ Role.view := by decide
  rw [ofDirectories]
  split
  · rename_i hfound
    exact hroles _ (List.mem_of_find?_eq_some hfound)
  · exact Role.noConfusion

/-- The ending has no slash, so that it stands in a path as it stands in the path's normal form. -/
theorem suffix_normalize_iff (path : String) :
    templateEnding <:+ '/' :: (Path.normalize path).toList ↔ templateEnding <:+ path.toList := by
  have hnormal : (Path.normalize path).toList =
      path.toList.map fun c => if c = '\\' then '/' else c := String.toList_ofList
  have hslash : '/' ∉ templateEnding := by decide
  have hplain : ∀ segment : List Char, (∀ c ∈ segment, c ≠ '\\') →
      segment.map (fun c => if c = '\\' then '/' else c) = segment := fun segment hsegment =>
    (List.map_congr_left fun c hc => if_neg (hsegment c hc)).trans (List.map_id' segment)
  rw [List.suffix_cons_iff, hnormal, List.suffix_map_iff]
  constructor
  · rintro (hwhole | ⟨segment, hsuffix, hsegment⟩)
    · rw [hwhole] at hslash
      exact absurd List.mem_cons_self hslash
    · have hback : ∀ c ∈ segment, c ≠ '\\' := by
        rintro c hc rfl
        rw [hsegment] at hslash
        exact hslash (List.mem_map.mpr ⟨_, hc, if_pos rfl⟩)
      rw [hsegment, hplain segment hback]
      exact hsuffix
  · intro hsuffix
    have hslashes : templateEnding.all (· != '\\') = true := by decide
    refine .inr ⟨templateEnding, hsuffix, (hplain templateEnding fun c hc => ?_).symm⟩
    exact bne_iff_ne.mp (List.all_eq_true.mp hslashes c hc)

/-- By its role, a template is a file whose path is written with the ending. -/
theorem classify_eq_view_iff (path : String) (content : List Char) :
    classify path content = .view ↔ templateEnding <:+ path.toList := by
  rw [← suffix_normalize_iff, ← List.isSuffixOf_iff_suffix]
  change _ ↔ endsWith ".blade.php" _ = true
  rw [classify]
  split
  · rename_i hends
    exact iff_of_true rfl hends
  · rename_i hends
    refine iff_of_false ?_ hends
    split
    · exact Role.noConfusion
    · split
      · rename_i role hrole
        obtain ⟨found, -, hbase⟩ := Option.bind_eq_some_iff.mp hrole
        rintro rfl
        exact ofBase?_ne_view _ hbase
      · split
        · split <;> exact Role.noConfusion
        · split
          · exact Role.noConfusion
          · exact ofDirectories_ne_view _

end Role

/-! ## Both -/

/-- If a path is written with the ending, then this is where its last name ends. -/
theorem eq_of_suffix {front ending tail : List Char} (hlower : lowerAscii ending = templateEnding)
    (htail : Path.Idle tail) (hsuffix : templateEnding <:+ front ++ (ending ++ tail)) :
    ending = templateEnding ∧ tail = [] := by
  obtain ⟨before, hbefore⟩ := hsuffix
  have hlast : (front ++ (ending ++ tail)).getLast? = some 'p' := by
    rw [← hbefore, List.getLast?_append]
    rfl
  have hnil : tail = [] := by
    cases htail with
    | nil => rfl
    | slash _ => simp [← List.append_assoc] at hlast
    | dot _ => simp [List.getLast?_append] at hlast
  rw [hnil, List.append_nil] at hbefore
  have hlength : templateEnding.length = ending.length := by
    rw [length_of_lowerAscii hlower]
    decide
  exact ⟨(List.append_inj' hbefore hlength).2.symm, hnil⟩

/-- The two ways to tell a template. By its kind it is one if its last name ends in `.blade.php`,
    whatever the case; by its role, if its path is written with this ending. A template by its role
    is one by its kind, and the two agree on a path exactly if its last name, where it ends like
    that of a template, does so in small letters and at the end of the path. -/
theorem templates_agree_iff (path : String) (content : List Char) :
    (SourceKind.ofPath path = .blade ↔ ∃ front ending tail,
        path.toList = front ++ (ending ++ tail) ∧ lowerAscii ending = templateEnding ∧
          Path.Idle tail) ∧
      (Role.classify path content = .view ↔ ∃ front, path.toList = front ++ templateEnding) ∧
      (Role.classify path content = .view → SourceKind.ofPath path = .blade) ∧
      ((SourceKind.ofPath path = .blade ↔ Role.classify path content = .view) ↔
        ∀ front ending tail, path.toList = front ++ (ending ++ tail) →
          lowerAscii ending = templateEnding → Path.Idle tail →
            ending = templateEnding ∧ tail = []) := by
  have hkind := SourceKind.ofPath_eq_blade_iff path
  have hrole : Role.classify path content = .view ↔
      ∃ front, path.toList = front ++ templateEnding :=
    (Role.classify_eq_view_iff path content).trans (exists_congr fun front => eq_comm)
  have hforward : Role.classify path content = .view → SourceKind.ofPath path = .blade := by
    intro hview
    obtain ⟨front, hfront⟩ := hrole.mp hview
    exact hkind.mpr ⟨front, templateEnding, [], by rw [hfront, List.append_nil], by decide, .nil⟩
  refine ⟨hkind, hrole, hforward, ?_⟩
  constructor
  · intro hagree front ending tail hpath hlower htail
    have hview := hagree.mp (hkind.mpr ⟨front, ending, tail, hpath, hlower, htail⟩)
    rw [Role.classify_eq_view_iff, hpath] at hview
    exact eq_of_suffix hlower htail hview
  · intro hplain
    refine ⟨fun hblade => ?_, hforward⟩
    obtain ⟨front, ending, tail, hpath, hlower, htail⟩ := hkind.mp hblade
    obtain ⟨rfl, rfl⟩ := hplain front ending tail hpath hlower htail
    exact hrole.mpr ⟨front, by rw [hpath, List.append_nil]⟩

/-- Capitals in the ending: a template by its kind, and a plain file by its role. -/
theorem capital_ending_disagrees :
    SourceKind.ofPath "views/HOME.BLADE.PHP" = .blade ∧
      Role.classify "views/HOME.BLADE.PHP" [] = .plain := by
  decide +kernel

end CodeAudit
