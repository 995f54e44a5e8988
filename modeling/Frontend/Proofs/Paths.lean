import Frontend.CommandLine.Options
import Mathlib.Data.String.Basic

/-!
# File names and stems

What a path says about its file, in terms of the text of the path: `LeadsTo` gives the name of the
file and `HasStem` the name without its extension.

* Parts.  A path is its parts with slashes between them, and no part holds a slash
  (`parts_eq_iff`).  This is where the positions of the scan are related to characters.
* Names.  The name of the file is the last part that leads somewhere (`fileName?_eq_some_iff`).
* Stems.  The extension begins at the last dot, unless that is the first character
  (`hasStem_stem`, `HasStem.stem_eq`), and the module is named after what is left
  (`moduleName_eq_iff`).
-/

namespace Frontend.Path

open String (ofList utf8Len)

/-! ## Parts -/

/-- One step over a path.  The scan stands behind `before ++ part`, where `part` is what it has seen
of the part that it is in. -/
theorem splitOnAux_cons (before part : List Char) (c : Char) (rest : List Char)
    (found : List String) :
    let path := ofList (before ++ part ++ c :: rest)
    let position := ⟨utf8Len (before ++ part ++ [c])⟩
    path.splitOnAux "/" ⟨utf8Len before⟩ ⟨utf8Len (before ++ part)⟩ 0 found =
      if c = '/' then path.splitOnAux "/" position position 0 (ofList part :: found)
      else path.splitOnAux "/" ⟨utf8Len before⟩ position 0 found := by
  intro path position
  have hend : ¬ String.Pos.Raw.atEnd path ⟨utf8Len (before ++ part)⟩ = true := by
    rw [String.atEnd_of_valid]
    exact List.cons_ne_nil c rest
  have hget : String.Pos.Raw.get path ⟨utf8Len (before ++ part)⟩ = c :=
    String.get_of_valid (before ++ part) (c :: rest)
  have hlength : utf8Len (before ++ part ++ [c]) = utf8Len (before ++ part) + c.utf8Size := by
    rw [String.utf8Len_append, String.utf8Len_cons, String.utf8Len_nil, Nat.zero_add]
  have hnext : String.Pos.Raw.next path ⟨utf8Len (before ++ part)⟩ = position := by
    rw [String.next_of_valid, ← hlength]
  have hslash : String.Pos.Raw.get "/" 0 = '/' ∧ String.Pos.Raw.next "/" 0 = ⟨1⟩ ∧
      String.Pos.Raw.atEnd "/" ⟨1⟩ = true := by
    decide +kernel
  rw [String.splitOnAux, if_neg hend, hget, hnext, hslash.1, hslash.2.1]
  by_cases hc : c = '/'
  · have hposition : position.unoffsetBy ⟨1⟩ = ⟨utf8Len before + utf8Len part⟩ := by
      subst hc
      simp only [position, hlength, String.utf8Len_append]
      rfl
    have hpart : String.Pos.Raw.extract path ⟨utf8Len before⟩ (position.unoffsetBy ⟨1⟩) =
        ofList part := by
      rw [hposition]
      exact String.extract_of_valid before part (c :: rest)
    rw [if_pos hc, if_pos (beq_iff_eq.2 hc)]
    simp only [hpart, hslash.2.2, if_true]
  · rw [if_neg hc, if_neg (mt beq_iff_eq.1 hc)]
    exact congrArg (path.splitOnAux "/" ⟨utf8Len before⟩ · 0 found) hnext

/-- The parts that the scan finds from some place on. -/
theorem splitOnAux_eq (before part rest : List Char) (found : List String) :
    (ofList (before ++ part ++ rest)).splitOnAux "/" ⟨utf8Len before⟩
        ⟨utf8Len (before ++ part)⟩ 0 found =
      found.reverse ++ (rest.splitOnPPrepend (· == '/') part.reverse).map ofList := by
  induction rest generalizing before part found with
  | nil =>
    have hend : String.Pos.Raw.atEnd (ofList (before ++ part ++ []))
        ⟨utf8Len (before ++ part)⟩ = true := by
      rw [String.atEnd_of_valid]
    rw [String.splitOnAux, if_pos hend, String.utf8Len_append, String.extract_of_valid]
    simp
  | cons c rest ih =>
    rw [splitOnAux_cons, List.splitOnPPrepend_cons_eq_if]
    by_cases hc : c = '/'
    · have hrest := ih (before ++ part ++ [c]) [] (ofList part :: found)
      rw [List.append_nil, List.append_assoc (before ++ part), List.singleton_append] at hrest
      rw [if_pos hc, if_pos (beq_iff_eq.2 hc), hrest]
      simp
    · have hrest := ih before (part ++ [c]) found
      rw [← List.append_assoc, List.append_assoc (before ++ part), List.singleton_append] at hrest
      rw [if_neg hc, if_neg (mt beq_iff_eq.1 hc), hrest]
      simp

theorem parts_eq (path : String) : parts path = (path.toList.splitOn '/').map ofList := by
  have hparts := splitOnAux_eq [] [] path.toList []
  rw [List.splitOn_eq_splitOnP, List.splitOnP_eq_splitOnPPrepend]
  simpa [parts, String.splitOn] using hparts

theorem slash_not_mem_splitOn {cs part : List Char} (hpart : part ∈ cs.splitOn '/') :
    '/' ∉ part := by
  induction cs generalizing part with
  | nil =>
    rw [List.splitOn_nil, List.mem_singleton] at hpart
    rw [hpart]
    exact List.not_mem_nil
  | cons c cs ih =>
    rw [List.splitOn_cons_eq_if_modifyHead] at hpart
    obtain ⟨first, others, hsplit⟩ := List.exists_cons_of_ne_nil (List.splitOn_ne_nil '/' cs)
    rw [hsplit] at hpart ih
    by_cases hc : c = '/'
    · rw [if_pos (beq_iff_eq.2 hc), List.mem_cons] at hpart
      rcases hpart with rfl | hpart
      · exact List.not_mem_nil
      · exact ih hpart
    · rw [if_neg (mt beq_iff_eq.1 hc), List.modifyHead_cons, List.mem_cons] at hpart
      rcases hpart with rfl | hpart
      · rw [List.mem_cons]
        rintro (hfirst | hmem)
        · exact hc hfirst.symm
        · exact ih List.mem_cons_self hmem
      · exact ih (List.mem_cons_of_mem first hpart)

/-- The parts of a path are the texts without slashes that make up the path with slashes between
them. -/
theorem parts_eq_iff {path : String} {texts : List String} (hne : texts ≠ []) :
    parts path = texts ↔
      path = "/".intercalate texts ∧ ∀ text ∈ texts, '/' ∉ text.toList := by
  rw [parts_eq]
  constructor
  · rintro rfl
    constructor
    · rw [← String.toList_inj, String.toList_intercalate, List.map_map]
      simp [Function.comp_def, List.intercalate_splitOn]
    · intro text htext
      obtain ⟨part, hpart, rfl⟩ := List.mem_map.1 htext
      rw [String.toList_ofList]
      exact slash_not_mem_splitOn hpart
  · rintro ⟨rfl, hslash⟩
    have hslash' : ∀ part ∈ texts.map String.toList, '/' ∉ part := List.forall_mem_map.2 hslash
    have hsplit := List.splitOn_intercalate '/' hslash' (mt List.map_eq_nil_iff.1 hne)
    have htexts : (texts.map String.toList).map ofList = texts := by
      simp [Function.comp_def]
    rw [String.toList_intercalate]
    exact (congrArg (List.map ofList) hsplit).trans htexts

/-! ## Names -/

/-- The path leads to a file of this name: the name is a part of the path, and those behind it
are empty or `.`. -/
def LeadsTo (path name : String) : Prop :=
  ∃ before after : List String,
    path = "/".intercalate (before ++ name :: after) ∧
    (∀ part ∈ before ++ name :: after, '/' ∉ part.toList) ∧
    (∀ part ∈ after, part = "" ∨ part = ".") ∧ name ≠ "" ∧ name ≠ "." ∧ name ≠ ".."

theorem fileName?_eq_some_iff {path name : String} :
    fileName? path = some name ↔ LeadsTo path name := by
  rw [fileName?, Option.filter_eq_some_iff, List.getLast?_filter, List.find?_eq_some_iff_append]
  simp only [leadsNowhere, Bool.not_eq_true', Bool.not_not, Bool.or_eq_true, Bool.or_eq_false_iff,
    beq_iff_eq, beq_eq_false_iff_ne, bne_iff_ne]
  constructor
  · rintro ⟨⟨⟨hempty, hdot⟩, after, before, hparts, hafter⟩, hup⟩
    rw [List.reverse_eq_iff, List.reverse_append, List.reverse_cons, List.append_assoc,
      List.singleton_append, parts_eq_iff (by simp)] at hparts
    refine ⟨before.reverse, after.reverse, hparts.1, hparts.2, fun part hpart => ?_, hempty, hdot,
      hup⟩
    exact hafter part (List.mem_reverse.1 hpart)
  · rintro ⟨before, after, hpath, hslash, hafter, hempty, hdot, hup⟩
    have hparts := (parts_eq_iff (by simp)).2 ⟨hpath, hslash⟩
    refine ⟨⟨⟨hempty, hdot⟩, after.reverse, before.reverse, by simp [hparts], fun part hpart => ?_⟩,
      hup⟩
    exact hafter part (List.mem_reverse.1 hpart)

/-! ## Stems -/

/-- The name without its extension.  The extension begins at the last dot, and there is none if no
dot stands behind the first character. -/
def HasStem (name stem : String) : Prop :=
  (∃ extension, name = stem ++ "." ++ extension ∧ '.' ∉ extension.toList ∧ stem ≠ "") ∨
    name = stem ∧ '.' ∉ name.toList.tail

/-- Where the search for a dot from the end of a name gets to. -/
theorem dropWhile_extension {extension : List Char} (hextension : '.' ∉ extension)
    (front : List Char) :
    ((front ++ extension).reverse.dropWhile fun c => c != '.') =
      front.reverse.dropWhile fun c => c != '.' := by
  rw [List.reverse_append, List.dropWhile_append_of_pos]
  intro c hc
  rw [bne_iff_ne]
  rintro rfl
  exact hextension (List.mem_reverse.1 hc)

theorem stem_of_no_dot {name : String} (hname : '.' ∉ name.toList) : stem name = name := by
  have hdrop := dropWhile_extension hname []
  rw [List.nil_append] at hdrop
  rw [stem, hdrop]
  rfl

theorem stem_of_dot {name : String} {front extension : List Char}
    (hname : name.toList = front ++ '.' :: extension) (hlast : '.' ∉ extension) :
    stem name = if front = [] then name else ofList front := by
  have hdrop := dropWhile_extension hlast (front ++ ['.'])
  rw [List.append_assoc, List.singleton_append, ← hname, List.reverse_append] at hdrop
  rw [stem, hdrop]
  rcases List.eq_nil_or_concat front with rfl | ⟨front, c, rfl⟩
  · rfl
  · rw [if_neg (by simp), List.concat_eq_append, List.reverse_append]
    show ofList (c :: front.reverse).reverse = ofList (front ++ [c])
    rw [List.reverse_cons, List.reverse_reverse]

theorem hasStem_stem (name : String) : HasStem name (stem name) := by
  by_cases hdot : '.' ∈ name.toList
  · -- the last dot is the first one from the end
    obtain ⟨extension, front, hreverse, hlast⟩ :=
      List.eq_append_cons_of_mem (List.mem_reverse.2 hdot)
    rw [List.reverse_eq_iff, List.reverse_append, List.reverse_cons, List.append_assoc,
      List.singleton_append] at hreverse
    rw [stem_of_dot hreverse (mt List.mem_reverse.1 hlast)]
    by_cases hfront : front = []
    · exact .inr ⟨by simp [hfront], by simp [hreverse, hfront, hlast]⟩
    · refine .inl ⟨ofList extension.reverse, ?_, by simpa using hlast, by simp [hfront]⟩
      rw [← String.toList_inj, hreverse]
      simp [hfront]
  · rw [stem_of_no_dot hdot]
    exact .inr ⟨rfl, fun htail => hdot (List.mem_of_mem_tail htail)⟩

theorem HasStem.stem_eq {name text : String} (hstem : HasStem name text) : stem name = text := by
  rcases hstem with ⟨extension, rfl, hlast, hne⟩ | ⟨rfl, htail⟩
  · have hchars : (text ++ "." ++ extension).toList = text.toList ++ '.' :: extension.toList := by
      simp
    rw [stem_of_dot hchars hlast, if_neg (mt String.toList_eq_nil_iff.1 hne), String.ofList_toList]
  · by_cases hdot : '.' ∈ name.toList
    · obtain ⟨c, extension, hname⟩ := List.exists_cons_of_ne_nil (List.ne_nil_of_mem hdot)
      rw [hname, List.tail_cons] at htail
      rw [hname, List.mem_cons, or_iff_left htail] at hdot
      rw [← hdot] at hname
      exact (@stem_of_dot name [] extension hname htail).trans (if_pos rfl)
    · exact stem_of_no_dot hdot

/-- The stem of the file that the path leads to. -/
def FileStem (path stem : String) : Prop :=
  ∃ name, LeadsTo path name ∧ HasStem name stem

theorem fileStem_iff {path text : String} :
    FileStem path text ↔ (fileName? path).map stem = some text := by
  rw [Option.map_eq_some_iff]
  refine exists_congr fun name => and_congr fileName?_eq_some_iff.symm ?_
  exact ⟨HasStem.stem_eq, fun hstem => hstem ▸ hasStem_stem name⟩

/-- A module is named after the stem of its file, and `main` if there is none. -/
theorem moduleName_eq_iff {path name : String} :
    moduleName path = name ↔
      FileStem path name ∨ (∀ stem, ¬ FileStem path stem) ∧ name = "main" := by
  simp only [fileStem_iff, moduleName]
  cases (fileName? path).map stem with
  | none => simp [eq_comm]
  | some text => simp

end Frontend.Path
