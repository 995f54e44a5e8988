import Frontend.Typing.Module
import Frontend.Tree.Compare
import Frontend.Proofs.Lookahead.Parsers
import Frontend.Proofs.Segmentation

/-!
# Layout

What stands between the tokens of a source has no meaning.

A lexeme stays one if a blank cuts short what follows it (`Lexeme.before_blank`), so the texts of
the tokens with blanks between them are a text with the same tokens.  And the parsers see only
tokens: two sources with the same tokens are parsed with the same answer and the same events, and
so they are compiled with the same result.
-/

namespace Frontend

namespace Token

/-! ## Blanks between tokens -/

theorem isVisible_of_isWordChar {c : Char} (hc : isWordChar c = true) : isVisible c = true := by
  simp only [isWordChar, Char.isAlphanum, Bool.or_eq_true, beq_iff_eq] at hc
  rcases hc with (halpha | hdigit) | rfl
  · exact isVisible_of_isAlpha halpha
  · exact isVisible_of_isNumberChar (by simp [isNumberChar, hdigit])
  · rfl

theorem not_isVisible_of_isWhiteSpace {blank : Char} (hblank : Text.isWhiteSpace blank = true) :
    isVisible blank = false := by
  simp [isVisible, hblank]

/-- An operator holds no blank, so at a place before a blank it ends before it. -/
theorem prefix_before_blank {operator : String} (hoperator : operator ∈ Operator.all) {blank : Char}
    (hblank : Text.isWhiteSpace blank = true) {text rest : List Char}
    (hlead : operator.toList <+: text ++ blank :: rest) : operator.toList <+: text := by
  have hall : (Operator.all.all fun operator => operator.toList.all isVisible) = true := by decide
  have hvisible := List.all_eq_true.1 (List.all_eq_true.1 hall operator hoperator)
  by_cases hlength : operator.toList.length ≤ text.length
  · exact List.prefix_of_prefix_length_le hlead (List.prefix_append text _) hlength
  · have hheld : text ++ [blank] <+: operator.toList := by
      refine List.prefix_of_prefix_length_le ?_ hlead ?_
      · exact ⟨rest, by simp⟩
      · rw [List.length_append, List.length_singleton]
        omega
    have hmem := hvisible blank (hheld.subset (by simp))
    rw [not_isVisible_of_isWhiteSpace hblank] at hmem
    cases hmem

/-- What does not continue a token at the front of a text does not do so if a blank cuts the text
short. -/
theorem head?_before_blank {p : Char → Bool} (hp : ∀ c, p c = true → isVisible c = true)
    {front rest : List Char} (hfront : front <+: rest) (hend : ∀ c ∈ rest.head?, p c = false)
    {blank : Char} (hblank : Text.isWhiteSpace blank = true) (rest' : List Char) :
    ∀ c ∈ (front ++ blank :: rest').head?, p c = false := by
  cases front with
  | nil =>
    rintro _ ⟨⟩
    rw [Bool.eq_false_iff]
    intro hpblank
    have hvisible := hp blank hpblank
    rw [not_isVisible_of_isWhiteSpace hblank] at hvisible
    cases hvisible
  | cons d front =>
    obtain ⟨behind, rfl⟩ := hfront
    exact hend

/-- A lexeme stays one if a blank cuts short what follows it. -/
theorem Lexeme.before_blank {front rest : List Char} {token : Token} (htoken : Lexeme rest token)
    (hfront : front <+: rest) {blank : Char} (hblank : Text.isWhiteSpace blank = true)
    (rest' : List Char) : Lexeme (front ++ blank :: rest') token := by
  cases htoken with
  | word hword hend =>
    exact .word hword (head?_before_blank (fun _ => isVisible_of_isWordChar) hfront hend hblank _)
  | number hne hnumber hend =>
    exact .number hne hnumber
      (head?_before_blank (fun _ => isVisible_of_isNumberChar) hfront hend hblank _)
  | @operator text htext hlongest =>
    refine .operator htext fun other hother hlead => hlongest other hother ?_
    rw [← List.append_assoc] at hlead
    exact (prefix_before_blank hother hblank hlead).trans
      ((List.prefix_append_right_inj text.toList).2 hfront)
  | @single c hvisible halpha hnumber hoperator =>
    refine .single hvisible halpha hnumber fun other hother hlead => hoperator other hother ?_
    have hlead : other.toList <+: c :: front := prefix_before_blank hother hblank hlead
    exact hlead.trans (List.cons_prefix_cons.2 ⟨rfl, hfront⟩)

/-- The token is a lexeme of some text. -/
def Lexical (token : Token) : Prop :=
  ∃ rest, Lexeme rest token

theorem Segmentation.lexical {cs : List Char} {tokens : List Token}
    (hsegments : Segmentation cs tokens) : ∀ token ∈ tokens, token.Lexical := by
  induction hsegments with
  | nil => nofun
  | @cons _ rest _ _ _ htoken _ ih => exact List.forall_mem_cons.2 ⟨⟨rest, htoken⟩, ih⟩

theorem Segmentation.blank {cs : List Char} {tokens : List Token}
    (hsegments : Segmentation cs tokens) : Segmentation (' ' :: cs) tokens := by
  cases hsegments with
  | nil hgap => exact .nil (.blank rfl hgap)
  | cons hgap htoken hrest => exact .cons (.blank rfl hgap) htoken hrest

/-- The texts of the tokens with a blank behind each. -/
def spaced (tokens : List Token) : List Char :=
  tokens.flatMap fun token => token.text.toList ++ [' ']

theorem segmentation_spaced {tokens : List Token}
    (htokens : ∀ token ∈ tokens, token.Lexical) : Segmentation (spaced tokens) tokens := by
  induction tokens with
  | nil => exact .nil .nil
  | cons token tokens ih =>
    rw [List.forall_mem_cons] at htokens
    obtain ⟨⟨rest, htoken⟩, htokens⟩ := htokens
    have hspaced : spaced (token :: tokens) = token.text.toList ++ ' ' :: spaced tokens := by
      simp [spaced]
    rw [hspaced]
    have htoken : Lexeme (' ' :: spaced tokens) token :=
      htoken.before_blank List.nil_prefix rfl (spaced tokens)
    exact .cons .nil htoken (ih htokens).blank

/-- The end of a source has no text, so a blank is the last character of the joined texts. -/
theorem toList_intercalate_blank (tokens : List Token) :
    (" ".intercalate ((tokens ++ [eof]).map Token.text)).toList = spaced tokens := by
  induction tokens with
  | nil => rfl
  | cons token tokens ih =>
    obtain ⟨next, others, hnext⟩ : ∃ next others, tokens ++ [eof] = next :: others :=
      List.exists_cons_of_ne_nil (by simp)
    rw [hnext] at ih
    rw [List.cons_append, hnext, List.map_cons, List.map_cons, String.intercalate_cons_cons,
      String.toList_append, String.toList_append, ← List.map_cons, ih]
    simp [spaced]

theorem tokenize_intercalate (source : String) :
    tokenize (" ".intercalate ((tokenize source).map Token.text)) = tokenize source := by
  have hsource : tokenize source = words source.toList ++ [eof] :=
    tokens_eq_words_append source.toList
  have hsegments := segmentation_spaced (segmentation_words source.toList).lexical
  rw [hsource]
  show tokens _ = _
  rw [toList_intercalate_blank, tokens_eq_words_append, hsegments.words_eq]

end Token

/-! ## Sources with the same tokens -/

/-- A parser that is local sees no more of a source than its tokens. -/
theorem Parser.Local.parse_congr {α : Type} {parser : Parser α} (hlocal : Parser.Local parser)
    {source other : String} (htokens : Token.tokenize other = Token.tokenize source) :
    (parser.parse other).1 = (parser.parse source).1 ∧
      (parser.parse other).2.log = (parser.parse source).2.log := by
  have hfollows : (parser.parse source).2.Follows (Parser.State.ofSource source) :=
    (hlocal _ (Parser.State.valid_ofSource source)).follows
  obtain ⟨used, hused⟩ := hfollows.suffix
  have hother : (Parser.State.ofSource other).pending =
      used ++ (parser.parse source).2.pending := by
    rw [hused, Parser.State.pending_ofSource, Parser.State.pending_ofSource, htokens]
  have hrepeats := hlocal.repeats_parse hused.symm hother hfollows.valid.current_eq.symm
  exact ⟨hrepeats.answer, hrepeats.log⟩

/-- What the parser answers and what it notes on the way decide the compilation. -/
theorem compile_congr {name source other : String}
    (hanswer : (Module.parse name other).1 = (Module.parse name source).1)
    (hlog : (Module.parse name other).2.log = (Module.parse name source).2.log) :
    compile name other = compile name source := by
  unfold compile
  generalize Module.parse name other = parsed' at *
  generalize Module.parse name source = parsed at *
  obtain ⟨answer, state⟩ := parsed
  obtain ⟨answer', state'⟩ := parsed'
  replace hanswer : answer' = answer := hanswer
  replace hlog : state'.log = state.log := hlog
  subst hanswer
  cases answer' with
  | error error => simp only [hlog]
  | ok module => simp only [hlog]

/-- Joined by blanks, the texts of a source's tokens are a source with the same tokens; and
sources with the same tokens have the same module and the same compilation. -/
theorem layout_has_no_meaning (source : String) :
    Token.tokenize (" ".intercalate ((Token.tokenize source).map Token.text)) =
        Token.tokenize source ∧
      ∀ other name, Token.tokenize other = Token.tokenize source →
        (Module.parse name other).1 = (Module.parse name source).1 ∧
          compile name other = compile name source := by
  refine ⟨Token.tokenize_intercalate source, fun other name htokens => ?_⟩
  obtain ⟨hanswer, hlog⟩ := (Parser.local_decls Parser.maxNesting).parse_congr htokens
  have hmodule : (Module.parse name other).1 = (Module.parse name source).1 := by
    show (Decl.parseAll other).1.map _ = (Decl.parseAll source).1.map _
    rw [Decl.parseAll, Decl.parseAll, hanswer]
  exact ⟨hmodule, compile_congr hmodule hlog⟩

/-- A dense source with comments, and the same tokens on several lines.  The sources compile to the
same tree, with a type on every expression, and to the same overloads. -/
theorem layout_of_comments_and_blanks :
    let dense := "extern g(x:int):int#given\ndef f(x:int):int\x7breturn g(x)+1\x7d#the end"
    let spaced := "extern g ( x : int ) : int\n\n" ++
      "def f ( x : int ) : int \x7b\n  return g ( x ) + 1\n\x7d"
    let tree : Module := ⟨"m", [⟨⟨"g", [⟨"x", "int"⟩], "int"⟩, none⟩,
      ⟨⟨"f", [⟨"x", "int"⟩], "int"⟩, some (.block [.ret (.binary "+"
        (.call "g" [.var "x" (some "int")] (some "int")) (.int 1 (some "int")) (some "int"))])⟩]⟩
    Token.tokenize dense = Token.tokenize spaced ∧
      (Module.parse "m" dense).1 = (Module.parse "m" spaced).1 ∧
      compile "m" dense = compile "m" spaced ∧
      ∃ compiled, (compile "m" dense).2 = .ok compiled ∧ compiled.module.identical tree = true ∧
        compiled.annotator.overloads.named "f" = [⟨["int"], "int"⟩] := by
  intro dense spaced tree
  have htokens : Token.tokenize dense = Token.tokenize spaced := by decide +kernel
  obtain ⟨hmodule, hcompile⟩ := (layout_has_no_meaning spaced).2 dense "m" htokens
  refine ⟨htokens, hmodule, hcompile, ?_⟩
  have hany : ((compile "m" dense).2.toOption.any fun compiled =>
      compiled.module.identical tree &&
        compiled.annotator.overloads.named "f" == [⟨["int"], "int"⟩]) = true := by
    decide +kernel
  cases hresult : (compile "m" dense).2 with
  | error error =>
    rw [hresult] at hany
    cases hany
  | ok compiled =>
    rw [hresult] at hany
    obtain ⟨hidentical, hnamed⟩ := Bool.and_eq_true_iff.1 hany
    exact ⟨compiled, rfl, hidentical, beq_iff_eq.1 hnamed⟩

end Frontend
