import Frontend.Proofs.Writing.Expr

/-!
# Outlines

An outline is a text of words, nodes and rows.  A node is a name and its parts in parentheses, and
a row has its items in brackets, with a comma and a space between two of them.

The text of an outline can be read in only one way.  Words and names hold no marks, so a text shows
where they end (`lead_inj`), and the mark there says what kind of outline it is.  The statements
are about a text with something after it, so that the texts of parts can be read one after the
other (`rowText_inj`, `readsBack`).
-/

namespace Frontend

/-- A tree that is written with words and marks. -/
inductive Outline where
  | word (text : String)
  | node (name : String) (parts : List Outline)
  | row (items : List Outline)

namespace Outline

/-! ## Text -/

mutual

/-- The text of an outline. -/
@[simp]
def text : Outline → List Char
  | .word text => text.toList
  | .node name parts => name.toList ++ '(' :: (rowText ", " parts ++ [')'])
  | .row items => '[' :: (rowText ", " items ++ [']'])

/-- The texts of several outlines, with a separator between two of them. -/
@[simp]
def rowText (separator : String) : List Outline → List Char
  | [] => []
  | item :: items => item.text ++ moreText separator items

/-- The texts of several outlines, each with a separator before it. -/
@[simp]
def moreText (separator : String) : List Outline → List Char
  | [] => []
  | item :: items => separator.toList ++ (item.text ++ moreText separator items)

end

/-- The characters that end a word. -/
def marks : List Char :=
  ['(', ')', '[', ']', ',', '\n']

/-- Whether the character ends a word. -/
def isMark (c : Char) : Bool :=
  marks.contains c

/-- Whether the text is not empty and has no marks in it. -/
def isUnmarked (text : String) : Bool :=
  !text.toList.isEmpty && text.toList.all fun c => !isMark c

mutual

/-- Whether all words and names of the outline are free of marks. -/
@[simp]
def isProper : Outline → Bool
  | .word text => isUnmarked text
  | .node name parts => isUnmarked name && areProper parts
  | .row items => areProper items

/-- Whether several outlines are proper. -/
@[simp]
def areProper : List Outline → Bool
  | [] => true
  | item :: items => item.isProper && areProper items

end

theorem isProper_node {name : String} (hname : isUnmarked name = true) {parts : List Outline}
    (hparts : areProper parts = true) : (node name parts).isProper = true := by
  rw [isProper, hname, hparts, Bool.and_self]

theorem areProper_iff {items : List Outline} :
    areProper items = true ↔ ∀ item ∈ items, item.isProper = true := by
  induction items with
  | nil => simp
  | cons item items ih => simp [ih]

/-- A text is unmarked if all its characters are of a kind that no mark is of. -/
theorem isUnmarked_of_all {kind : Char → Bool} (hkind : marks.any kind = false) {text : String}
    (hne : text.toList ≠ []) (hall : ∀ c ∈ text.toList, kind c = true) :
    isUnmarked text = true := by
  simp only [isUnmarked, Bool.and_eq_true, Bool.not_eq_true', List.isEmpty_eq_false_iff,
    List.all_eq_true]
  refine ⟨hne, fun c hc => ?_⟩
  rw [Bool.eq_false_iff]
  intro hmark
  rw [List.any_eq_false] at hkind
  exact hkind c (List.contains_iff_mem.1 hmark) (hall c hc)

theorem moreText_eq_flatMap (separator : String) (items : List Outline) :
    moreText separator items = (items.map text).flatMap (separator.toList ++ ·) := by
  induction items with
  | nil => rfl
  | cons item items ih => rw [moreText, ih, List.map_cons, List.flatMap_cons, List.append_assoc]

/-- Texts with a separator between them are the text of their outlines. -/
theorem toList_intercalate (separator : String) {texts : List String} {items : List Outline}
    (htexts : texts.map String.toList = items.map text) :
    (separator.intercalate texts).toList = rowText separator items := by
  cases texts with
  | nil =>
    rw [List.map_nil, eq_comm, List.map_eq_nil_iff] at htexts
    rw [htexts]
    rfl
  | cons first texts =>
    cases items with
    | nil => cases htexts
    | cons item items =>
      obtain ⟨hfirst, hmore⟩ := List.cons.inj htexts
      rw [Grammar.toList_intercalate_cons, rowText, moreText_eq_flatMap, ← hmore, hfirst,
        List.flatMap_map]

/-! ## Where an outline ends -/

/-- Whether a text is at its end or at the end of a node or a row. -/
def closes : List Char → Bool
  | [] => true
  | c :: _ => c == ')' || c == ']'

/-- Whether a text stands between two outlines. -/
def isSeparator (separator : String) : Bool :=
  separator == ", " || separator == "\n"

/-- Whether a text can come after an outline. -/
def follows : List Char → Bool
  | [] => true
  | c :: _ => c == ')' || c == ']' || c == ',' || c == '\n'

theorem follows_of_closes {rest : List Char} (hrest : closes rest = true) :
    follows rest = true := by
  cases rest with
  | nil => rfl
  | cons c rest =>
    rw [closes] at hrest
    simp only [follows, hrest, Bool.true_or]

section Separators

variable {separator : String}

theorem separator_append (hseparator : isSeparator separator = true) (rest : List Char) :
    follows (separator.toList ++ rest) = true ∧ closes (separator.toList ++ rest) = false := by
  simp only [isSeparator, Bool.or_eq_true, beq_iff_eq] at hseparator
  rcases hseparator with rfl | rfl <;> exact ⟨rfl, rfl⟩

theorem follows_moreText (hseparator : isSeparator separator = true) (items : List Outline)
    {rest : List Char} (hrest : closes rest = true) :
    follows (moreText separator items ++ rest) = true := by
  cases items with
  | nil => exact follows_of_closes hrest
  | cons item items =>
    rw [moreText, List.append_assoc]
    exact (separator_append hseparator _).1

end Separators

/-! ## Where a word ends -/

/-- The word or the name that an outline begins with. -/
def lead : Outline → List Char
  | .word text => text.toList
  | .node name _ => name.toList
  | .row _ => []

/-- What comes after it. -/
def afterLead : Outline → List Char
  | .word _ => []
  | .node _ parts => '(' :: (rowText ", " parts ++ [')'])
  | .row items => '[' :: (rowText ", " items ++ [']'])

theorem text_append (outline : Outline) (rest : List Char) :
    outline.text ++ rest = outline.lead ++ (outline.afterLead ++ rest) := by
  cases outline <;> simp [text, lead, afterLead]

theorem not_isMark_of_mem_lead {outline : Outline} (hproper : outline.isProper = true) :
    ∀ c ∈ outline.lead, (!isMark c) = true := by
  cases outline with
  | word text =>
    simp only [isProper, isUnmarked, Bool.and_eq_true, List.all_eq_true] at hproper
    exact hproper.2
  | node name parts =>
    simp only [isProper, isUnmarked, Bool.and_eq_true, List.all_eq_true] at hproper
    exact hproper.1.2
  | row items => exact fun _ hmem => nomatch hmem

theorem isMark_of_mem_head? (outline : Outline) {rest : List Char}
    (hrest : follows rest = true) :
    ∀ c ∈ (outline.afterLead ++ rest).head?, (!isMark c) = false := by
  cases outline with
  | word text =>
    cases rest with
    | nil => exact fun _ hmem => nomatch hmem
    | cons c rest =>
      rintro _ ⟨⟩
      simp only [follows, Bool.or_eq_true, beq_iff_eq] at hrest
      rcases hrest with ((rfl | rfl) | rfl) | rfl <;> rfl
  | node name parts =>
    rintro _ ⟨⟩
    rfl
  | row items =>
    rintro _ ⟨⟩
    rfl

/-- A text shows where the first word or name ends. -/
theorem lead_inj {outline other : Outline} (hproper : outline.isProper = true)
    (hproper' : other.isProper = true) {rest rest' : List Char} (hrest : follows rest = true)
    (hrest' : follows rest' = true) (htext : outline.text ++ rest = other.text ++ rest') :
    outline.lead = other.lead ∧ outline.afterLead ++ rest = other.afterLead ++ rest' := by
  rw [text_append, text_append] at htext
  obtain ⟨htake, hdrop⟩ := Token.takeWhile_run (not_isMark_of_mem_lead hproper)
    (outline.isMark_of_mem_head? hrest)
  obtain ⟨htake', hdrop'⟩ := Token.takeWhile_run (not_isMark_of_mem_lead hproper')
    (other.isMark_of_mem_head? hrest')
  rw [htext] at htake hdrop
  exact ⟨htake.symm.trans htake', hdrop.symm.trans hdrop'⟩

/-- Where a row ends, no outline begins. -/
theorem not_closes_text {outline : Outline} (hproper : outline.isProper = true)
    (rest : List Char) : closes (outline.text ++ rest) = false := by
  have hword {text : String} (htext : isUnmarked text = true) (rest : List Char) :
      closes (text.toList ++ rest) = false := by
    simp only [isUnmarked, Bool.and_eq_true] at htext
    rcases hlist : text.toList with _ | ⟨c, cs⟩ <;> simp_all [closes, isMark, marks]
  rw [text_append]
  cases outline with
  | word text => exact hword hproper _
  | node name parts =>
    simp only [isProper, Bool.and_eq_true] at hproper
    exact hword hproper.1 _
  | row items => rfl

/-! ## Reading -/

/-- No other outline begins a text with which this one can begin it. -/
def ReadsBack (outline : Outline) : Prop :=
  ∀ ⦃other : Outline⦄, other.isProper = true → ∀ ⦃rest rest' : List Char⦄, follows rest = true →
    follows rest' = true → outline.text ++ rest = other.text ++ rest' →
    outline = other ∧ rest = rest'

section Rows

variable {separator : String} {items items' : List Outline} {rest rest' : List Char}

theorem moreText_inj (hseparator : isSeparator separator = true)
    (hitems : ∀ item ∈ items, item.ReadsBack) (hproper : areProper items' = true)
    (hrest : closes rest = true) (hrest' : closes rest' = true)
    (htext : moreText separator items ++ rest = moreText separator items' ++ rest') :
    items = items' ∧ rest = rest' := by
  induction items generalizing items' with
  | nil =>
    cases items' with
    | nil => exact ⟨rfl, htext⟩
    | cons item' items' =>
      simp only [moreText, List.nil_append, List.append_assoc] at htext
      rw [htext, (separator_append hseparator _).2] at hrest
      cases hrest
  | cons item items ih =>
    cases items' with
    | nil =>
      simp only [moreText, List.nil_append, List.append_assoc] at htext
      rw [← htext, (separator_append hseparator _).2] at hrest'
      cases hrest'
    | cons item' items' =>
      rw [List.forall_mem_cons] at hitems
      simp only [areProper, Bool.and_eq_true] at hproper
      simp only [moreText, List.append_assoc] at htext
      obtain ⟨rfl, hmore⟩ := hitems.1 hproper.1 (follows_moreText hseparator items hrest)
        (follows_moreText hseparator items' hrest') (List.append_cancel_left htext)
      obtain ⟨rfl, hrest⟩ := ih hitems.2 hproper.2 hmore
      exact ⟨rfl, hrest⟩

theorem moreText_eq_rowText (separator : String) (item : Outline) (items : List Outline) :
    moreText separator (item :: items) = separator.toList ++ rowText separator (item :: items) := by
  rw [moreText, rowText]

/-- The texts of several outlines can be read in only one way if each of them can. -/
theorem rowText_inj (hseparator : isSeparator separator = true)
    (hitems : ∀ item ∈ items, item.ReadsBack) (hproper : areProper items = true)
    (hproper' : areProper items' = true)
    (hrest : closes rest = true) (hrest' : closes rest' = true)
    (htext : rowText separator items ++ rest = rowText separator items' ++ rest') :
    items = items' ∧ rest = rest' := by
  cases items with
  | nil =>
    cases items' with
    | nil => exact ⟨rfl, htext⟩
    | cons item' items' =>
      simp only [areProper, Bool.and_eq_true] at hproper'
      simp only [rowText, List.nil_append, List.append_assoc] at htext
      rw [htext, not_closes_text hproper'.1] at hrest
      cases hrest
  | cons item items =>
    cases items' with
    | nil =>
      simp only [areProper, Bool.and_eq_true] at hproper
      simp only [rowText, List.nil_append, List.append_assoc] at htext
      rw [← htext, not_closes_text hproper.1] at hrest'
      cases hrest'
    | cons item' items' =>
      refine moreText_inj hseparator hitems hproper' hrest hrest' ?_
      rw [moreText_eq_rowText, moreText_eq_rowText, List.append_assoc, List.append_assoc, htext]

end Rows

mutual

/-- The text of a proper outline can be read in only one way. -/
theorem readsBack : (outline : Outline) → outline.isProper = true → outline.ReadsBack
  | .word text, hproper => by
    intro other hproper' rest rest' hrest hrest' htext
    obtain ⟨hlead, hafter⟩ := lead_inj hproper hproper' hrest hrest' htext
    cases other with
    | word text' => exact ⟨congrArg word (String.toList_inj.1 hlead), hafter⟩
    | node _ _ | row _ =>
      simp only [afterLead, List.nil_append] at hafter
      rw [hafter] at hrest
      cases hrest
  | .node name parts, hproper => by
    intro other hproper' rest rest' hrest hrest' htext
    obtain ⟨hlead, hafter⟩ := lead_inj hproper hproper' hrest hrest' htext
    cases other with
    | word _ =>
      simp only [afterLead, List.nil_append] at hafter
      rw [← hafter] at hrest'
      cases hrest'
    | node name' parts' =>
      simp only [isProper, Bool.and_eq_true] at hproper hproper'
      simp only [afterLead, List.cons_append, List.append_assoc, List.nil_append] at hafter
      obtain ⟨rfl, hclose⟩ := rowText_inj rfl (readsBack_of_mem parts hproper.2) hproper.2
        hproper'.2 rfl rfl (List.cons.inj hafter).2
      exact ⟨congrArg (node · parts) (String.toList_inj.1 hlead), (List.cons.inj hclose).2⟩
    | row _ => cases (List.cons.inj hafter).1
  | .row items, hproper => by
    intro other hproper' rest rest' hrest hrest' htext
    obtain ⟨-, hafter⟩ := lead_inj hproper hproper' hrest hrest' htext
    cases other with
    | word _ =>
      simp only [afterLead, List.nil_append] at hafter
      rw [← hafter] at hrest'
      cases hrest'
    | node _ _ => cases (List.cons.inj hafter).1
    | row items' =>
      simp only [isProper] at hproper hproper'
      simp only [afterLead, List.cons_append, List.append_assoc, List.nil_append] at hafter
      obtain ⟨rfl, hclose⟩ := rowText_inj rfl (readsBack_of_mem items hproper) hproper hproper'
        rfl rfl (List.cons.inj hafter).2
      exact ⟨rfl, (List.cons.inj hclose).2⟩

theorem readsBack_of_mem : (items : List Outline) → areProper items = true →
    ∀ item ∈ items, item.ReadsBack
  | [], _ => nofun
  | item :: items, hproper => by
    simp only [areProper, Bool.and_eq_true] at hproper
    rw [List.forall_mem_cons]
    exact ⟨readsBack item hproper.1, readsBack_of_mem items hproper.2⟩

end

/-- Two proper outlines with the same text are the same. -/
theorem text_inj {outline other : Outline} (hproper : outline.isProper = true)
    (hproper' : other.isProper = true) (htext : outline.text = other.text) : outline = other :=
  (outline.readsBack hproper hproper' rfl rfl (congrArg (· ++ []) htext)).1

/-- Outlines on lines of their own can be told from their text. -/
theorem lines_inj {items items' : List Outline} (hproper : areProper items = true)
    (hproper' : areProper items' = true) (htext : rowText "\n" items = rowText "\n" items') :
    items = items' :=
  (rowText_inj rfl (readsBack_of_mem items hproper) hproper hproper' rfl rfl
    (congrArg (· ++ []) htext)).1

end Outline

end Frontend
