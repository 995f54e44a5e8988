import Frontend.Proofs.Grammar
import Frontend.Proofs.Words

/-!
# Words of written text

How a text that is written piece by piece falls into words again.  A word or a number ends
where a character follows that cannot continue it; `apart` says so of what follows.  Blanks
fall away, and a mark is a word of its own whatever follows.

- `words_blank`, `words_word`, `words_number`, `words_mark`, `words_operator`: the first word
  of a text by its first characters
- `Spells`: a text falls into given words, whatever follows apart from it
-/

namespace Frontend.Token

open Grammar

/-- Whether the text cannot continue a word or a number. -/
def apart : List Char → Bool
  | [] => true
  | c :: _ => !isWordChar c && !isNumberChar c

/-! ## Gaps -/

theorem words_congr {cs cs' : List Char} (hskip : skipGap cs = skipGap cs') :
    words cs = words cs' := by
  rcases hcases : skipGap cs' with _ | ⟨c, rest⟩
  · rw [words_of_skipGap_nil hcases, words_of_skipGap_nil (hskip.trans hcases)]
  · rw [words_of_skipGap_cons hcases, words_of_skipGap_cons (hskip.trans hcases)]

theorem words_blank {c : Char} (hc : Text.isWhiteSpace c = true) (cs : List Char) :
    words (c :: cs) = words cs := by
  apply words_congr
  rw [skipGap, if_pos hc]

@[simp]
theorem words_space (cs : List Char) : words (' ' :: cs) = words cs :=
  words_blank rfl cs

@[simp]
theorem words_newline (cs : List Char) : words ('\n' :: cs) = words cs :=
  words_blank rfl cs

@[simp]
theorem words_spaces (count : Nat) (cs : List Char) :
    words (List.replicate count ' ' ++ cs) = words cs := by
  induction count with
  | zero => rfl
  | succ count ih => rw [List.replicate_succ, List.cons_append, words_space, ih]

/-- Whether a token begins at the character. -/
def isVisible (c : Char) : Bool :=
  !Text.isWhiteSpace c && c != '#'

theorem words_visible {c : Char} (hc : isVisible c = true) (cs : List Char) :
    words (c :: cs) = (cut c cs).1 :: words (cut c cs).2 := by
  simp only [isVisible, Bool.and_eq_true, Bool.not_eq_true', bne_iff_ne] at hc
  apply words_of_skipGap_cons
  rw [skipGap, if_neg (by simp [hc.1]), if_neg (by simp [hc.2])]

theorem isVisible_of_toNat {c : Char} (hlow : 36 ≤ c.toNat) (hhigh : c.toNat ≤ 126) :
    isVisible c = true := by
  have hblank : Text.isWhiteSpace c = false := by
    simp only [Text.isWhiteSpace, Bool.or_eq_false_iff, Bool.and_eq_false_iff,
      decide_eq_false_iff_not, beq_eq_false_iff_ne]
    omega
  have hhash : c ≠ '#' := by
    rintro rfl
    exact absurd hlow (by decide)
  simp [isVisible, hblank, hhash]

/-! ## Words and numbers -/

theorem toNat_of_isAlpha {c : Char} (hc : c.isAlpha = true) :
    65 ≤ c.toNat ∧ c.toNat ≤ 90 ∨ 97 ≤ c.toNat ∧ c.toNat ≤ 122 := by
  have hcase : (decide (65 ≤ c.val ∧ c.val ≤ 90) || decide (97 ≤ c.val) && decide (c.val ≤ 122)) =
      true := hc
  simp only [Bool.or_eq_true, Bool.and_eq_true, decide_eq_true_eq, UInt32.le_iff_toNat_le] at hcase
  exact hcase

theorem isVisible_of_isAlpha {c : Char} (hc : c.isAlpha = true) : isVisible c = true := by
  have hcode := toNat_of_isAlpha hc
  exact isVisible_of_toNat (by omega) (by omega)

theorem isVisible_of_isNumberChar {c : Char} (hc : isNumberChar c = true) :
    isVisible c = true := by
  simp only [isNumberChar, Bool.or_eq_true, beq_iff_eq] at hc
  rcases hc with hdigit | rfl
  · have hcode := Char.isDigit_iff_toNat.1 hdigit
    exact isVisible_of_toNat (Nat.le_trans (by decide) hcode.1) (Nat.le_trans hcode.2 (by decide))
  · rfl

theorem isAlpha_of_isNumberChar {c : Char} (hc : isNumberChar c = true) : c.isAlpha = false := by
  rw [Bool.eq_false_iff]
  intro halpha
  have hcode := toNat_of_isAlpha halpha
  simp only [isNumberChar, Bool.or_eq_true, beq_iff_eq] at hc
  rcases hc with hdigit | rfl
  · have hdigit := Char.isDigit_iff_toNat.1 hdigit
    simp only [Char.reduceToNat] at hdigit
    omega
  · exact absurd halpha (by decide)

/-- A run of characters ends where the text is no more of the kind. -/
theorem takeWhile_run {p : Char → Bool} {run rest : List Char} (hrun : ∀ c ∈ run, p c = true)
    (hrest : ∀ c ∈ rest.head?, p c = false) :
    (run ++ rest).takeWhile p = run ∧ (run ++ rest).dropWhile p = rest := by
  rw [List.takeWhile_append_of_pos hrun, List.dropWhile_append_of_pos hrun]
  cases rest with
  | nil => simp
  | cons c rest => simp [hrest c rfl]

theorem not_isWordChar_of_apart {rest : List Char} (hrest : apart rest = true) :
    ∀ c ∈ rest.head?, isWordChar c = false := by
  cases rest with
  | nil => simp
  | cons c rest => simp_all [apart]

theorem not_isNumberChar_of_apart {rest : List Char} (hrest : apart rest = true) :
    ∀ c ∈ rest.head?, isNumberChar c = false := by
  cases rest with
  | nil => simp
  | cons c rest => simp_all [apart]

theorem words_word {text : String} (htext : isWord text = true) {rest : List Char}
    (hrest : apart rest = true) : words (text.toList ++ rest) = ofWord text :: words rest := by
  unfold isWord at htext
  rcases hlist : text.toList with _ | ⟨c, cs⟩
  · simp [hlist] at htext
  · simp only [hlist, Bool.and_eq_true, List.all_eq_true] at htext
    obtain ⟨htake, hdrop⟩ := takeWhile_run htext.2 (not_isWordChar_of_apart hrest)
    have hcut : cut c (cs ++ rest) = (ofWord text, rest) := by
      unfold cut
      rw [if_pos htext.1, htake, hdrop, ← hlist, String.ofList_toList]
    rw [List.cons_append, words_visible (isVisible_of_isAlpha htext.1), hcut]

theorem words_identifier {name : String} (hname : isIdentifier name = true) {rest : List Char}
    (hrest : apart rest = true) :
    words (name.toList ++ rest) = ⟨.identifier, name⟩ :: words rest := by
  simp only [isIdentifier, Bool.and_eq_true, Option.isNone_iff_eq_none] at hname
  rw [words_word hname.1 hrest, ofWord, hname.2, Option.getD_none]

theorem words_number {digits : List Char} (hne : digits ≠ [])
    (hdigits : ∀ c ∈ digits, isNumberChar c = true) {rest : List Char}
    (hrest : apart rest = true) : words (digits ++ rest) = ofNumber digits :: words rest := by
  rcases digits with _ | ⟨c, cs⟩
  · exact absurd rfl hne
  · have hc := hdigits c (List.mem_cons_self ..)
    obtain ⟨htake, hdrop⟩ := takeWhile_run (fun d hd => hdigits d (List.mem_cons_of_mem c hd))
      (not_isNumberChar_of_apart hrest)
    have hcut : cut c (cs ++ rest) = (ofNumber (c :: cs), rest) := by
      unfold cut
      rw [if_neg (by simp [isAlpha_of_isNumberChar hc]), if_pos hc, htake, hdrop]
    rw [List.cons_append, words_visible (isVisible_of_isNumberChar hc), hcut]

/-! ## Marks and operators -/

/-- Whether the character is a token of its own, whatever follows. -/
def isMark (c : Char) : Bool :=
  isVisible c && !c.isAlpha && !isNumberChar c && (Operator.followers c).isEmpty

theorem words_mark {c : Char} (hc : isMark c = true) (cs : List Char) :
    words (c :: cs) = ofSymbol (String.ofList [c]) :: words cs := by
  simp only [isMark, Bool.and_eq_true, Bool.not_eq_true', List.isEmpty_iff] at hc
  obtain ⟨⟨⟨hvisible, halpha⟩, hnumber⟩, hfollowers⟩ := hc
  have hcut : cut c cs = (ofSymbol (String.ofList [c]), cs) := by
    unfold cut
    rw [if_neg (by simp [halpha]), if_neg (by simp [hnumber])]
    cases cs with
    | nil => rfl
    | cons d ds =>
      dsimp only
      rw [hfollowers, if_neg (by simp)]
  rw [words_visible hvisible, hcut]

@[simp]
theorem words_open (cs : List Char) : words ('(' :: cs) = punct "(" :: words cs :=
  words_mark rfl cs

@[simp]
theorem words_close (cs : List Char) : words (')' :: cs) = punct ")" :: words cs :=
  words_mark rfl cs

@[simp]
theorem words_openBrace (cs : List Char) : words ('\x7b' :: cs) = punct "\x7b" :: words cs :=
  words_mark rfl cs

@[simp]
theorem words_closeBrace (cs : List Char) : words ('\x7d' :: cs) = punct "\x7d" :: words cs :=
  words_mark rfl cs

@[simp]
theorem words_comma (cs : List Char) : words (',' :: cs) = punct "," :: words cs :=
  words_mark rfl cs

@[simp]
theorem words_colon (cs : List Char) : words (':' :: cs) = punct ":" :: words cs :=
  words_mark rfl cs

@[simp]
theorem words_minus (cs : List Char) : words ('-' :: cs) = minus :: words cs :=
  words_mark rfl cs

@[simp]
theorem words_becomes (cs : List Char) : words ('=' :: ' ' :: cs) = punct "=" :: words cs := by
  rw [← words_space cs]
  exact words_visible rfl (' ' :: cs)

/-- The blank ends an operator of one character that could have a second. -/
theorem words_operator {text : String} (htext : text ∈ Operator.all) (cs : List Char) :
    words (text.toList ++ ' ' :: cs) = ⟨.op, text⟩ :: words cs := by
  rw [← words_space cs]
  simp only [Operator.all, List.mem_cons, List.not_mem_nil, or_false] at htext
  rcases htext with rfl | rfl | rfl | rfl | rfl | rfl | rfl | rfl | rfl | rfl | rfl <;>
    exact words_visible rfl _

/-! ## Spelling -/

/-- The text falls into the tokens, whatever follows apart from it. -/
def Spells (text : List Char) (tokens : List Token) : Prop :=
  ∀ rest, apart rest = true → words (text ++ rest) = tokens ++ words rest

theorem Spells.words_eq {text : List Char} {tokens : List Token} (hspells : Spells text tokens) :
    words text = tokens := by
  have hnil : words [] = [] := words_of_skipGap_nil rfl
  have hspelled := hspells [] rfl
  rwa [List.append_nil, hnil, List.append_nil] at hspelled

end Frontend.Token
