import Frontend.CommandLine.Run
import Frontend.Proofs.Annotation.Events
import Frontend.Proofs.Annotation.Operators
import Frontend.Proofs.Writing.Expr
import Mathlib.Data.List.Induction

/-!
# The printed signatures

What a run prints that is asked for nothing else: the signatures of the declared functions.

* Order.  `Sorted` adds to the invariant of the table that the overloads of a name stand in the
  order of their first declarations; a declaration that succeeds keeps it.
* Texts.  A line can be read back (`Signature.line_inj`), because neither names nor types hold a
  character that stands between them.
* The run.  `signatures_printed_once` puts the two together.
-/

namespace Frontend

/-! ## Order -/

/-- The order of first declarations: by the name, and for one name by the argument types. -/
def Precedes (protos : List Prototype) (key later : String × List TypeName) : Prop :=
  (protos.map Prototype.name).idxOf key.1 < (protos.map Prototype.name).idxOf later.1 ∨
    key.1 = later.1 ∧
      (protos.map Prototype.key).idxOf key < (protos.map Prototype.key).idxOf later

theorem Precedes.ne {protos : List Prototype} {key later : String × List TypeName}
    (hprecedes : Precedes protos key later) : key ≠ later := by
  intro heq
  subst heq
  rcases hprecedes with hless | ⟨-, hless⟩ <;> exact absurd hless (Nat.lt_irrefl _)

/-- Without duplicates, the elements stand in the order of their first occurrences.  The induction
is on the list from its end, where a new element comes last. -/
theorem pairwise_eraseDups (names : List String) :
    names.eraseDups.Pairwise fun name later => names.idxOf name < names.idxOf later := by
  induction names using List.reverseRecOn with
  | nil => exact .nil
  | append_singleton names last ih =>
    have hold : names.eraseDups.Pairwise fun name later =>
        (names ++ [last]).idxOf name < (names ++ [last]).idxOf later := by
      refine ih.imp_of_mem fun hname hlater hless => ?_
      rw [List.mem_eraseDups] at hname hlater
      rwa [List.idxOf_append_of_mem hname, List.idxOf_append_of_mem hlater]
    rw [List.eraseDups_append]
    by_cases hlast : last ∈ names
    · have hnone : [last].removeAll names = [] := by simp [List.removeAll, hlast]
      rwa [hnone, List.eraseDups_nil, List.append_nil]
    · have hnew : [last].removeAll names = [last] := by simp [List.removeAll, hlast]
      rw [hnew, List.pairwise_append]
      refine ⟨hold, List.pairwise_singleton _ last, fun name hname later hlater => ?_⟩
      rw [List.mem_eraseDups] at hname hlater
      rw [List.mem_singleton.1 hlater, List.idxOf_append_of_mem hname, List.idxOf_append,
        if_neg hlast]
      have := List.idxOf_lt_length_of_mem hname
      omega

/-- The overloads are those of the operators and of the prototypes, and those of a name that is
declared stand in the order in which the prototypes do. -/
structure Sorted (overloads : Overloads) (protos : List Prototype) : Prop
    extends Represents overloads protos where
  order : ∀ name, Token.isIdentifier name = true →
    (overloads.named name).Pairwise fun signature later =>
      (protos.map Prototype.key).idxOf (name, signature.argTypes) <
        (protos.map Prototype.key).idxOf (name, later.argTypes)

theorem sorted_builtin : Sorted .builtin [] := by
  refine ⟨represents_builtin, fun name hname => ?_⟩
  have hnone : Overloads.builtin.named name = [] := by
    rw [List.eq_nil_iff_forall_not_mem]
    intro signature hmem
    exact not_identifier_of_operator (Overloads.mem_all_of_builtin hmem) hname
  rw [hnone]
  exact .nil

/-- The overloads of an identifier are those of the prototypes. -/
theorem Represents.mem_named_iff {overloads : Overloads} {protos : List Prototype}
    (hrep : Represents overloads protos) {name : String} (hname : Token.isIdentifier name = true)
    {signature : Signature} :
    signature ∈ overloads.named name ↔ ∃ proto ∈ protos, proto.Declares name signature := by
  rw [hrep.mem_iff]
  refine ⟨fun hmem => hmem.resolve_left fun hbuiltin => ?_, .inr⟩
  exact not_identifier_of_operator (Overloads.mem_all_of_builtin hbuiltin) hname

/-- One more prototype leaves the places of the earlier ones, and the overload that it adds comes
last. -/
theorem Decl.Registered.sorted {decl : Decl} {overloads known : Overloads}
    {earlier : List Prototype} (hregistered : decl.Registered overloads known)
    (hsorted : Sorted overloads earlier)
    (hidentifier : Token.isIdentifier decl.proto.name = true) :
    Sorted known (earlier ++ [decl.proto]) := by
  have hrep := hsorted.toRepresents
  refine ⟨hregistered.represents hrep hidentifier, fun name hname => ?_⟩
  have hkey {signature : Signature} (hmem : signature ∈ overloads.named name) :
      (name, signature.argTypes) ∈ earlier.map Prototype.key := by
    obtain ⟨proto, hproto, rfl, rfl⟩ := (hrep.mem_named_iff hname).1 hmem
    exact List.mem_map_of_mem hproto
  rw [List.map_append, List.map_singleton]
  have hold : (overloads.named name).Pairwise fun signature later =>
      (earlier.map Prototype.key ++ [decl.proto.key]).idxOf (name, signature.argTypes) <
        (earlier.map Prototype.key ++ [decl.proto.key]).idxOf (name, later.argTypes) := by
    refine (hsorted.order name hname).imp_of_mem fun hsignature hlater hless => ?_
    rwa [List.idxOf_append_of_mem (hkey hsignature), List.idxOf_append_of_mem (hkey hlater)]
  cases hregistered with
  | there hreturn => exact hold
  | added hfresh =>
    rw [Overloads.named, Overloads.lookup_add]
    by_cases hthis : name = decl.name
    · subst hthis
      rw [if_pos rfl, Option.getD_some, List.pairwise_append]
      refine ⟨hold, List.pairwise_singleton _ _, fun signature hsignature later hlater => ?_⟩
      have hnew : decl.proto.key ∉ earlier.map Prototype.key :=
        (hrep.returnType?_eq_none_iff hidentifier).1 hfresh
      have hlast : (decl.name, later.argTypes) = decl.proto.key := by
        rw [List.mem_singleton.1 hlater]
        rfl
      rw [hlast, List.idxOf_append_of_mem (hkey hsignature), List.idxOf_append, if_neg hnew]
      have := List.idxOf_lt_length_of_mem (hkey hsignature)
      omega
    · rw [if_neg hthis]
      exact hold

theorem Decl.sorted_annotate {decl : Decl} (hplain : decl.Plain) {annotator : Annotator}
    {earlier : List Prototype} (hsorted : Sorted annotator.overloads earlier)
    (hresult : (decl.annotate annotator).result = .ok ()) :
    Sorted (decl.annotate annotator).annotator.overloads (earlier ++ [decl.proto]) := by
  rcases decl.annotate_outcomes annotator with ⟨events, error, -, hannotate⟩ |
    ⟨known, events, hopens, hannotate⟩ <;> rw [hannotate] at hresult ⊢
  · cases hresult
  · rw [overloads_annotateReady]
    exact hopens.registered.sorted hsorted hplain.name

theorem Decl.sorted_annotateAll {decls : List Decl} (hplain : ∀ decl ∈ decls, decl.Plain)
    {annotator : Annotator} {earlier : List Prototype}
    (hsorted : Sorted annotator.overloads earlier)
    (hresult : (annotateAll annotator decls).result = .ok ()) :
    Sorted (annotateAll annotator decls).annotator.overloads (earlier ++ decls.map Decl.proto) := by
  induction decls generalizing annotator earlier with
  | nil =>
    rw [List.map_nil, List.append_nil]
    exact hsorted
  | cons decl decls ih =>
    rw [List.forall_mem_cons] at hplain
    obtain ⟨hfirst, hothers⟩ := annotateAll_cons_ok_iff.1 hresult
    have hdecls := ih hplain.2 (sorted_annotate hplain.1 hsorted hfirst) hothers
    rw [annotateAll_cons_of_ok decls hfirst, List.map_cons]
    rwa [List.append_assoc] at hdecls

/-! ## Texts -/

namespace Token

/-- An identifier begins with a letter and goes on with characters of words. -/
theorem toList_of_identifier {name : String} (hname : isIdentifier name = true) :
    (∃ c cs, name.toList = c :: cs ∧ c.isAlpha = true) ∧
      ∀ c ∈ name.toList, isWordChar c = true := by
  simp only [isIdentifier, isWord, Bool.and_eq_true] at hname
  rcases hlist : name.toList with _ | ⟨c, cs⟩ <;> simp only [hlist, Bool.and_eq_true] at hname
  · cases hname.1
  · obtain ⟨⟨halpha, hothers⟩, -⟩ := hname
    refine ⟨⟨c, cs, rfl, halpha⟩, ?_⟩
    rw [List.forall_mem_cons]
    exact ⟨by simp [isWordChar, Char.isAlphanum, halpha], List.all_eq_true.1 hothers⟩

/-- A name ends where the text cannot continue it. -/
theorem identifier_append_inj {name name' : String} (hname : isIdentifier name = true)
    (hname' : isIdentifier name' = true) {rest rest' : List Char} (hrest : apart rest = true)
    (hrest' : apart rest' = true) (htext : name.toList ++ rest = name'.toList ++ rest') :
    name = name' ∧ rest = rest' := by
  obtain ⟨htake, hdrop⟩ :=
    takeWhile_run (toList_of_identifier hname).2 (not_isWordChar_of_apart hrest)
  obtain ⟨htake', hdrop'⟩ :=
    takeWhile_run (toList_of_identifier hname').2 (not_isWordChar_of_apart hrest')
  rw [htext] at htake hdrop
  exact ⟨String.toList_inj.1 (htake.symm.trans htake'), hdrop.symm.trans hdrop'⟩

end Token

namespace TypeName

/-- The types are identifiers. -/
def AllIdentifiers (types : List TypeName) : Prop :=
  ∀ type ∈ types, Token.isIdentifier type = true

/-- Types after the first one, each with the comma before it. -/
def moreText (types : List TypeName) : List Char :=
  types.flatMap fun type => ", ".toList ++ String.toList type

theorem apart_moreText (types : List TypeName) (rest : List Char) :
    Token.apart (moreText types ++ ')' :: rest) = true := by
  cases types <;> rfl

theorem moreText_inj {types types' : List TypeName} (htypes : AllIdentifiers types)
    (htypes' : AllIdentifiers types') {rest rest' : List Char}
    (htext : moreText types ++ ')' :: rest = moreText types' ++ ')' :: rest') :
    types = types' ∧ rest = rest' := by
  induction types generalizing types' with
  | nil =>
    cases types' with
    | nil => exact ⟨rfl, (List.cons.inj htext).2⟩
    | cons type' types' => cases (List.cons.inj htext).1
  | cons type types ih =>
    cases types' with
    | nil => cases (List.cons.inj htext).1
    | cons type' types' =>
      unfold AllIdentifiers at htypes htypes'
      rw [List.forall_mem_cons] at htypes htypes'
      simp only [moreText, List.flatMap_cons, List.append_assoc] at htext
      obtain ⟨rfl, hmore⟩ := Token.identifier_append_inj htypes.1 htypes'.1
        (apart_moreText types rest) (apart_moreText types' rest') (List.append_cancel_left htext)
      obtain ⟨rfl, hrest⟩ := ih htypes.2 htypes'.2 hmore
      exact ⟨rfl, hrest⟩

theorem moreText_eq_list {types : List TypeName} (hne : types ≠ []) :
    moreText types = ", ".toList ++ (list types).toList := by
  obtain ⟨type, types, rfl⟩ := List.exists_cons_of_ne_nil hne
  rw [list, Grammar.toList_intercalate_cons, ← List.append_assoc]
  exact List.flatMap_cons

theorem list_ne_close {types : List TypeName} (htypes : AllIdentifiers types) (hne : types ≠ [])
    (rest rest' : List Char) : (list types).toList ++ rest ≠ ')' :: rest' := by
  obtain ⟨type, types, rfl⟩ := List.exists_cons_of_ne_nil hne
  obtain ⟨⟨c, cs, hlist, halpha⟩, -⟩ := Token.toList_of_identifier (htypes type List.mem_cons_self)
  rw [list, Grammar.toList_intercalate_cons, hlist]
  intro htext
  rw [(List.cons.inj htext).1] at halpha
  cases halpha

/-- The types in front of a closing parenthesis can be read back. -/
theorem list_inj {types types' : List TypeName} (htypes : AllIdentifiers types)
    (htypes' : AllIdentifiers types') {rest rest' : List Char}
    (htext : (list types).toList ++ ')' :: rest = (list types').toList ++ ')' :: rest') :
    types = types' ∧ rest = rest' := by
  by_cases hnil : types = []
  · by_cases hnil' : types' = []
    · subst hnil hnil'
      exact ⟨rfl, (List.cons.inj htext).2⟩
    · subst hnil
      exact absurd htext.symm (list_ne_close htypes' hnil' _ _)
  · by_cases hnil' : types' = []
    · subst hnil'
      exact absurd htext (list_ne_close htypes hnil _ _)
    · refine moreText_inj htypes htypes' ?_
      rw [moreText_eq_list hnil, moreText_eq_list hnil', List.append_assoc, htext,
        List.append_assoc]

end TypeName

namespace Signature

/-- The name and the types are identifiers. -/
structure Spelled (name : String) (signature : Signature) : Prop where
  name : Token.isIdentifier name = true
  argTypes : TypeName.AllIdentifiers signature.argTypes
  returnType : Token.isIdentifier signature.returnType = true

theorem toList_line (name : String) (signature : Signature) :
    (name ++ signature.display).toList =
      name.toList ++ '(' :: ((TypeName.list signature.argTypes).toList ++
        ')' :: (" -> ".toList ++ signature.returnType.toList)) := by
  simp only [display, String.toList_append, List.append_assoc]
  rfl

/-- A line can be read back. -/
theorem line_inj {name name' : String} {signature signature' : Signature}
    (hspelled : signature.Spelled name) (hspelled' : signature'.Spelled name')
    (htext : name ++ signature.display = name' ++ signature'.display) :
    name = name' ∧ signature = signature' := by
  obtain ⟨argTypes, returnType⟩ := signature
  obtain ⟨argTypes', returnType'⟩ := signature'
  have hchars := congrArg String.toList htext
  rw [toList_line, toList_line] at hchars
  obtain ⟨rfl, hargs⟩ :=
    Token.identifier_append_inj hspelled.name hspelled'.name rfl rfl hchars
  obtain ⟨rfl, hreturn⟩ :=
    TypeName.list_inj hspelled.argTypes hspelled'.argTypes (List.cons.inj hargs).2
  obtain rfl := String.toList_inj.1 (List.append_cancel_left hreturn)
  exact ⟨rfl, rfl⟩

/-- There is no line break in a line. -/
theorem break_not_mem_line {name : String} {signature : Signature}
    (hspelled : signature.Spelled name) : '\n' ∉ (name ++ signature.display).toList := by
  have hword {word : String} (hidentifier : Token.isIdentifier word = true) :
      '\n' ∉ word.toList := by
    intro hmem
    exact absurd ((Token.toList_of_identifier hidentifier).2 _ hmem) (by decide)
  have hlist : '\n' ∉ (TypeName.list signature.argTypes).toList := by
    have htypes := hspelled.argTypes
    unfold TypeName.list
    cases hargs : signature.argTypes with
    | nil => simp
    | cons type types =>
      rw [hargs, TypeName.AllIdentifiers, List.forall_mem_cons] at htypes
      rw [Grammar.toList_intercalate_cons, List.mem_append, List.mem_flatMap]
      rintro (hmem | ⟨other, hother, hmem⟩)
      · exact hword htypes.1 hmem
      · rcases List.mem_append.1 hmem with hmem | hmem
        · exact absurd hmem (by decide)
        · exact hword (htypes.2 other hother) hmem
  rw [toList_line]
  simp [hword hspelled.name, hlist, hword hspelled.returnType]

/-- A line of an operator does not begin as a line of an identifier does. -/
theorem line_ne_operator {name operator : String} (hname : Token.isIdentifier name = true)
    (hoperator : operator ∈ Operator.all) (signature signature' : Signature) :
    name ++ signature.display ≠ operator ++ signature'.display := by
  have hall : ∀ operator ∈ Operator.all,
      (operator.toList.head?.any fun c => !c.isAlpha) = true := by decide +kernel
  have hfirst := hall operator hoperator
  obtain ⟨⟨c, cs, hlist, halpha⟩, -⟩ := Token.toList_of_identifier hname
  intro htext
  have hchars := congrArg String.toList htext
  rw [toList_line, toList_line, hlist] at hchars
  rcases hlist' : operator.toList with _ | ⟨c', cs'⟩ <;> rw [hlist'] at hchars hfirst
  · cases hfirst
  · rw [(List.cons.inj hchars).1] at halpha
    simp [halpha] at hfirst

end Signature

theorem Prototype.spelled {proto : Prototype} (hcanonical : proto.isCanonical = true) :
    proto.signature.Spelled proto.name := by
  simp only [isCanonical, Bool.and_eq_true, List.all_eq_true, Param.isCanonical] at hcanonical
  obtain ⟨⟨hname, hparams⟩, hreturn⟩ := hcanonical
  refine ⟨hname, fun type htype => ?_, hreturn⟩
  obtain ⟨param, hparam, rfl⟩ := List.mem_map.1 htype
  exact (hparams param hparam).2

/-! ## The run -/

namespace CommandLine

/-- The line that a name and an overload of it are printed in. -/
def line (entry : String × Signature) : String :=
  entry.1 ++ entry.2.display

/-- What lines are told apart by. -/
def key (entry : String × Signature) : String × List TypeName :=
  (entry.1, entry.2.argTypes)

/-- The overloads of the declared names, grouped by name. -/
def listed (overloads : Overloads) (protos : List Prototype) : List (String × Signature) :=
  (protos.map Prototype.name).eraseDups.flatMap fun name =>
    (overloads.named name).map fun signature => (name, signature)

theorem signatures_eq (compiled : Compiled) :
    signatures compiled =
      (listed compiled.annotator.overloads (compiled.module.decls.map Decl.proto)).map line := by
  have hnames : declaredNames compiled.module =
      ((compiled.module.decls.map Decl.proto).map Prototype.name).eraseDups := by
    rw [declaredNames, List.map_map]
    rfl
  rw [signatures, hnames, listed, List.map_flatMap]
  simp only [List.map_map, Function.comp_def, line]

section Listed

variable {overloads : Overloads} {protos : List Prototype}

theorem mem_listed_iff (hrep : Represents overloads protos) {entry : String × Signature} :
    entry ∈ listed overloads protos ↔ ∃ proto ∈ protos, proto.Declares entry.1 entry.2 := by
  obtain ⟨name, signature⟩ := entry
  simp only [listed, List.mem_flatMap, List.mem_eraseDups, List.mem_map, Prod.mk.injEq]
  constructor
  · rintro ⟨_, ⟨proto, hproto, rfl⟩, _, hmem, rfl, rfl⟩
    exact (hrep.mem_named_iff (hrep.identifier proto hproto)).1 hmem
  · rintro ⟨proto, hproto, rfl, rfl⟩
    exact ⟨_, ⟨proto, hproto, rfl⟩, _,
      (hrep.mem_named_iff (hrep.identifier proto hproto)).2 ⟨proto, hproto, rfl, rfl⟩, rfl, rfl⟩

theorem pairwise_listed (hsorted : Sorted overloads protos) :
    (listed overloads protos).Pairwise fun entry later =>
      Precedes protos (key entry) (key later) := by
  rw [listed, List.pairwise_flatMap]
  constructor
  · intro name hname
    rw [List.mem_eraseDups] at hname
    obtain ⟨proto, hproto, rfl⟩ := List.mem_map.1 hname
    rw [List.pairwise_map]
    exact (hsorted.order _ (hsorted.identifier proto hproto)).imp fun hless => .inr ⟨rfl, hless⟩
  · refine (pairwise_eraseDups _).imp fun hless entry hentry later hlater => ?_
    obtain ⟨signature, -, rfl⟩ := List.mem_map.1 hentry
    obtain ⟨signature', -, rfl⟩ := List.mem_map.1 hlater
    exact .inl hless

end Listed

/-- What a compilation knows in the end, in terms of the declarations that it answers. -/
theorem sorted_of_compile {name source : String} {compiled : Compiled}
    (hcompile : (compile name source).2 = .ok compiled) :
    Sorted compiled.annotator.overloads (compiled.module.decls.map Decl.proto) ∧
      ∀ proto ∈ compiled.module.decls.map Decl.proto, proto.isCanonical = true := by
  cases hparse : (Module.parse name source).1 with
  | error error =>
    rw [compile_of_parse_error hparse] at hcompile
    cases hcompile
  | ok module =>
    rw [compile_of_parse hparse] at hcompile
    obtain ⟨done, hresult, rfl⟩ := map_eq_ok_iff.1 hcompile
    obtain ⟨-, hplain⟩ := Module.plain_of_parse hparse
    have hprotos : (module.annotate .initial).node.decls.map Decl.proto =
        module.decls.map Decl.proto := by
      have huntagged := congrArg (List.map Decl.proto)
        (Decl.untagged_annotateAll module.decls .initial)
      rwa [List.map_map, List.map_map] at huntagged
    have hinitial : Sorted Annotator.initial.overloads [] := sorted_builtin
    rw [hprotos]
    refine ⟨Decl.sorted_annotateAll hplain hinitial hresult, fun proto hproto => ?_⟩
    obtain ⟨decl, hdecl, rfl⟩ := List.mem_map.1 hproto
    exact (hplain decl hdecl).proto

/-- A run that is asked for nothing else prints the signatures.  Each pair of a name and argument
types that is declared has one line, with the return type of its declarations, and all lines
differ.  They stand in the order of the first declarations, those of one name together.  There is
none for an operator.  A verbose run prints its log before them, however it writes an event. -/
theorem signatures_printed_once (render : Event → String) {options : Options} {source : String}
    {compiled : Compiled} (hdump : options.dumpAst = false) (hemit : options.emitSource = false)
    (hcompile : (compile options.moduleName source).2 = .ok compiled) :
    ∃ printed : List (String × Signature),
      let texts := printed.map line
      let protos := compiled.module.decls.map Decl.proto
      let events := Event.readSource options.moduleName source.utf8ByteSize ::
        (compile options.moduleName source).1
      let log := if options.verbose then lines (Event.log render .debug events) else ""
      runOn render options source = ⟨0, log ++ lines texts, ""⟩ ∧
      texts.Nodup ∧ (∀ text ∈ texts, '\n' ∉ text.toList) ∧
      (∀ entry, entry ∈ printed ↔ ∃ proto ∈ protos, proto.Declares entry.1 entry.2) ∧
      (printed.map key).Pairwise (Precedes protos) ∧ (printed.map key).Nodup ∧
      ∀ operator signature, signature ∈ Overloads.builtin.named operator →
        operator ++ signature.display ∉ texts := by
  obtain ⟨hsorted, hcanonical⟩ := sorted_of_compile hcompile
  have hrep := hsorted.toRepresents
  have hpairwise := pairwise_listed hsorted
  have hspelled {entry : String × Signature}
      (hentry : entry ∈ listed compiled.annotator.overloads
        (compiled.module.decls.map Decl.proto)) : entry.2.Spelled entry.1 := by
    obtain ⟨proto, hproto, hname, hsignature⟩ := (mem_listed_iff hrep).1 hentry
    rw [← hname, ← hsignature]
    exact Prototype.spelled (hcanonical proto hproto)
  refine ⟨listed compiled.annotator.overloads (compiled.module.decls.map Decl.proto), ?_, ?_, ?_,
    fun entry => mem_listed_iff hrep, List.pairwise_map.2 hpairwise, ?_, ?_⟩
  · rw [← signatures_eq]
    simp only [runOn, output, hdump, hemit, hcompile, Bool.or_self, Bool.false_eq_true, if_false,
      Except.map]
  · -- lines with the same text would have the same key
    refine List.pairwise_map.2 (hpairwise.imp_of_mem fun hentry hlater hprecedes htext => ?_)
    obtain ⟨hname, hsignature⟩ := Signature.line_inj (hspelled hentry) (hspelled hlater) htext
    exact hprecedes.ne (congrArg key (Prod.ext hname hsignature))
  · intro text htext
    obtain ⟨entry, hentry, rfl⟩ := List.mem_map.1 htext
    exact Signature.break_not_mem_line (hspelled hentry)
  · exact List.pairwise_map.2 (hpairwise.imp Precedes.ne)
  · intro operator signature hbuiltin htext
    obtain ⟨entry, hentry, htext⟩ := List.mem_map.1 htext
    exact Signature.line_ne_operator (hspelled hentry).name
      (Overloads.mem_all_of_builtin hbuiltin) entry.2 signature htext

/-- Overloads that are declared in turns, one of them twice. -/
theorem signatures_printed_in_turns :
    let options : Options := ⟨"m.st", "m", false, false, false⟩
    let source := "extern f(x: int): int extern g(): int extern f(x: float): float " ++
      "def f(y: int): int \x7b return y \x7d"
    (runOn Event.line options source).out = "f(int) -> int\nf(float) -> float\ng() -> int\n" ∧
      ∃ compiled, (compile options.moduleName source).2 = .ok compiled ∧
        ∃ printed : List (String × Signature),
          runOn Event.line options source = ⟨0, "" ++ lines (printed.map line), ""⟩ ∧
          (printed.map line).Nodup ∧
          (printed.map key).Pairwise (Precedes (compiled.module.decls.map Decl.proto)) := by
  intro options source
  have hok : (compile options.moduleName source).2.isOk = true := by decide +kernel
  cases hcompile : (compile options.moduleName source).2 with
  | error error =>
    rw [hcompile] at hok
    cases hok
  | ok compiled =>
    obtain ⟨printed, hrun, hdistinct, -, -, hpairwise, -⟩ :=
      @signatures_printed_once Event.line options source compiled rfl rfl hcompile
    exact ⟨by decide +kernel, compiled, rfl, printed, hrun, hdistinct, hpairwise⟩

end CommandLine

end Frontend
