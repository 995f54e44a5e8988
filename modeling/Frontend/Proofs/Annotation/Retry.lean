import Frontend.Proofs.Annotation.Effects
import Frontend.Proofs.Annotation.Knowledge

/-!
# Annotation tried again

A tree keeps the tags that an annotation has filled, also if that failed, and the next one does
not look into what is tagged.  This module proves that nothing but the events tells a tree that
was tried before from one that was not.

* What is compared.  Two annotations agree if they leave the same tree, the same result and the
  same annotator.
* Once more.  `annotate_again`: a tree that was annotated with one annotator, successfully or not,
  and is then annotated with another that knows more, comes out as if it were new.
* Attempts.  `retry_transparent` is the result for any sequence of attempts.
-/

namespace Frontend

/-! ## What is compared -/

/-- The same tree and the same result. -/
structure Annotated.Agrees {ν α : Type} (first second : Annotated ν α) : Prop where
  node : first.node = second.node
  result : first.result = second.result

/-- The same tree, the same result and the same annotator. -/
structure Pass.Agrees {ν : Type} (first second : Pass ν) : Prop
    extends first.toAnnotated.Agrees second.toAnnotated where
  annotator : first.annotator = second.annotator

theorem Annotated.Agrees.refl {ν α : Type} (first : Annotated ν α) : first.Agrees first :=
  ⟨rfl, rfl⟩

theorem Pass.Agrees.refl {ν : Type} (first : Pass ν) : first.Agrees first :=
  ⟨⟨rfl, rfl⟩, rfl⟩

/-- Lists agree if their first elements do and, unless that fails, the others. -/
theorem Pass.Agrees.cons {ν : Type} {head head' : Pass ν} {others others' : List ν}
    {tail tail' : Annotator → Pass (List ν)} (hhead : head'.Agrees head)
    (htail : (tail' head.annotator).Agrees (tail head.annotator))
    (hfirst : head.result = .ok () ∨ others' = others) :
    (head'.cons others' tail').Agrees (head.cons others tail) := by
  rw [Pass.cons, Pass.cons, hhead.result, hhead.node, hhead.annotator]
  cases hresult : head.result with
  | error error =>
    rcases hfirst with hok | rfl
    · rw [hresult] at hok
      cases hok
    · exact ⟨⟨rfl, rfl⟩, rfl⟩
  | ok done =>
    dsimp only
    rw [htail.node, htail.result, htail.annotator]
    exact ⟨⟨rfl, rfl⟩, rfl⟩

/-! ## Once more: expressions -/

namespace Expr

section More

variable {annotator later : Annotator}

/-- An operator applied to operands that were tried before.  The second one was, if the first has
a type. -/
theorem agrees_binary {lhs lhs' rhs rhs' : Expr} (operator : String)
    (hlhs : (lhs'.annotate later).Agrees (lhs.annotate later))
    (hrhs : (rhs'.annotate later).Agrees (rhs.annotate later))
    (hfirst : (∃ type, (lhs.annotate later).result = .ok type) ∨ rhs' = rhs) :
    ((binary operator lhs' rhs' none).annotate later).Agrees
      ((binary operator lhs rhs none).annotate later) := by
  rw [annotate, annotate, hlhs.result, hlhs.node]
  cases hresult : (lhs.annotate later).result with
  | error error =>
    rcases hfirst with ⟨type, htype⟩ | rfl
    · rw [hresult] at htype
      cases htype
    · exact ⟨rfl, rfl⟩
  | ok type =>
    dsimp only
    rw [hrhs.result, hrhs.node]
    exact ⟨rfl, rfl⟩

theorem agrees_cons {expr expr' : Expr} {exprs exprs' : List Expr}
    (hexpr : (expr'.annotate later).Agrees (expr.annotate later))
    (hexprs : (annotateAll later exprs').Agrees (annotateAll later exprs))
    (hfirst : (∃ type, (expr.annotate later).result = .ok type) ∨ exprs' = exprs) :
    (annotateAll later (expr' :: exprs')).Agrees (annotateAll later (expr :: exprs)) := by
  rw [annotateAll, annotateAll, hexpr.result, hexpr.node]
  cases hresult : (expr.annotate later).result with
  | error error =>
    rcases hfirst with ⟨type, htype⟩ | rfl
    · rw [hresult] at htype
      cases htype
    · exact ⟨rfl, rfl⟩
  | ok type =>
    dsimp only
    rw [hexprs.result, hexprs.node]
    exact ⟨rfl, rfl⟩

mutual

/-- The induction is on the tree.  A node that got its tag is not looked into again, and would get
the same tag; one that did not is gone through again, with operands that come out as new ones. -/
theorem annotate_again (hmore : annotator.KnowsMore later) : (expr : Expr) →
    ((expr.annotate annotator).node.annotate later).Agrees (expr.annotate later)
  | .int .. | .float .. | .bool .. => ⟨rfl, rfl⟩
  | .unary _ _ (some _) | .binary _ _ _ (some _) | .call _ _ (some _) => ⟨rfl, rfl⟩
  | .var name tag => by
    rw [annotate]
    cases htype : annotator.variableType name with
    | error error => exact .refl _
    | ok type =>
      dsimp only
      rw [annotate, annotate, hmore.variableType, htype]
      exact ⟨rfl, rfl⟩
  | .unary operator operand none => by
    cases hresult : ((unary operator operand none).annotate annotator).result with
    | ok type =>
      obtain ⟨hlater, hnode⟩ := annotate_ok_mono hmore _ hresult
      rw [annotate_unary_node hresult] at hnode ⊢
      exact ⟨hnode.symm, hlater.symm⟩
    | error error =>
      have hoperand := annotate_again hmore operand
      rw [annotate_unary_node_of_error hresult, annotate, annotate, hoperand.node, hoperand.result]
      exact ⟨rfl, rfl⟩
  | .binary operator lhs rhs none => by
    cases hresult : ((binary operator lhs rhs none).annotate annotator).result with
    | ok type =>
      obtain ⟨hlater, hnode⟩ := annotate_ok_mono hmore _ hresult
      rw [annotate_binary_node hresult] at hnode ⊢
      exact ⟨hnode.symm, hlater.symm⟩
    | error error =>
      have hlhsAgrees := annotate_again hmore lhs
      have hrhsAgrees := annotate_again hmore rhs
      rw [annotate] at hresult ⊢
      cases hlhs : (lhs.annotate annotator).result with
      | error lhsError => exact agrees_binary operator hlhsAgrees (.refl _) (.inr rfl)
      | ok lhsType =>
        have hlater := (annotate_ok_mono hmore lhs hlhs).1
        simp only [hlhs] at hresult ⊢
        rw [hresult]
        exact agrees_binary operator hlhsAgrees hrhsAgrees (.inl ⟨lhsType, hlater⟩)
  | .call callee args none => by
    cases hresult : ((call callee args none).annotate annotator).result with
    | ok type =>
      obtain ⟨hlater, hnode⟩ := annotate_ok_mono hmore _ hresult
      rw [annotate_call_node hresult] at hnode ⊢
      exact ⟨hnode.symm, hlater.symm⟩
    | error error =>
      have hargs := annotateAll_again hmore args
      rw [annotate_call_node_of_error hresult, annotate, annotate, hargs.node, hargs.result]
      exact ⟨rfl, rfl⟩

theorem annotateAll_again (hmore : annotator.KnowsMore later) : (exprs : List Expr) →
    (annotateAll later (annotateAll annotator exprs).node).Agrees (annotateAll later exprs)
  | [] => ⟨rfl, rfl⟩
  | expr :: exprs => by
    have hexprAgrees := annotate_again hmore expr
    rw [annotateAll]
    cases hexpr : (expr.annotate annotator).result with
    | error error => exact agrees_cons hexprAgrees (.refl _) (.inr rfl)
    | ok type =>
      have hlater := (annotate_ok_mono hmore expr hexpr).1
      exact agrees_cons hexprAgrees (annotateAll_again hmore exprs) (.inl ⟨type, hlater⟩)

end

end More

end Expr

/-! ## Once more: statements -/

namespace Stmt

theorem agrees_ifElse {later : Annotator} {condition condition' : Expr}
    {thenBranch thenBranch' elseBranch elseBranch' : Stmt}
    (hcondition : (condition'.annotate later).Agrees (condition.annotate later))
    (hthen : (thenBranch'.annotate later).Agrees (thenBranch.annotate later))
    (helse : (elseBranch'.annotate (thenBranch.annotate later).annotator).Agrees
      (elseBranch.annotate (thenBranch.annotate later).annotator))
    (hfirst : (condition.annotate later).result = .ok boolType ∨
      thenBranch' = thenBranch ∧ elseBranch' = elseBranch)
    (hsecond : (thenBranch.annotate later).result = .ok () ∨ elseBranch' = elseBranch) :
    ((ifElse condition' thenBranch' elseBranch').annotate later).Agrees
      ((ifElse condition thenBranch elseBranch).annotate later) := by
  rw [annotate, annotate, hcondition.result, hcondition.node]
  cases hcheck : (condition.annotate later).result.bind checkCondition with
  | error error =>
    rcases hfirst with hbool | ⟨rfl, rfl⟩
    · rw [checkCondition_eq_ok_iff_bind.2 hbool] at hcheck
      cases hcheck
    · exact ⟨⟨rfl, rfl⟩, rfl⟩
  | ok done =>
    dsimp only
    rw [hthen.result, hthen.node, hthen.annotator]
    cases hresult : (thenBranch.annotate later).result with
    | error error =>
      rcases hsecond with hok | rfl
      · rw [hresult] at hok
        cases hok
      · exact ⟨⟨rfl, rfl⟩, rfl⟩
    | ok done =>
      dsimp only
      rw [helse.result, helse.node, helse.annotator]
      exact ⟨⟨rfl, rfl⟩, rfl⟩

mutual

/-- The statements that the first annotation came to before it failed are gone through again and
leave what they left then; where it failed, and after that, the statement is new. -/
theorem annotate_again : (stmt : Stmt) → {annotator later : Annotator} →
    annotator.KnowsMore later →
    ((stmt.annotate annotator).node.annotate later).Agrees (stmt.annotate later)
  | .letVar .., _, _, _ => .refl _
  | .assign target value, annotator, later, hmore => by
    have hvalue := value.annotate_again hmore
    show ((assign target (value.annotate annotator).node).annotate later).Agrees _
    rw [annotate, annotate, hvalue.node, hvalue.result]
    exact ⟨⟨rfl, rfl⟩, rfl⟩
  | .ifElse condition thenBranch elseBranch, annotator, later, hmore => by
    have hconditionAgrees := condition.annotate_again hmore
    cases hcheck : (condition.annotate annotator).result.bind checkCondition with
    | error error =>
      rw [show ((ifElse condition thenBranch elseBranch).annotate annotator).node =
          ifElse (condition.annotate annotator).node thenBranch elseBranch by rw [annotate, hcheck]]
      exact agrees_ifElse hconditionAgrees (.refl _) (.refl _) (.inr ⟨rfl, rfl⟩) (.inr rfl)
    | ok done =>
      have hcondition := checkCondition_eq_ok_iff_bind.1 hcheck
      have hconditionLater := (condition.annotate_ok_mono hmore hcondition).1
      have hthenAgrees := annotate_again thenBranch hmore
      cases hthen : (thenBranch.annotate annotator).result with
      | error error =>
        rw [show ((ifElse condition thenBranch elseBranch).annotate annotator).node =
            ifElse (condition.annotate annotator).node (thenBranch.annotate annotator).node
              elseBranch by rw [annotate, hcheck]; simp only [hthen]]
        exact agrees_ifElse hconditionAgrees hthenAgrees (.refl _) (.inl hconditionLater) (.inr rfl)
      | ok done =>
        obtain ⟨hthenLater, -, hthenMore⟩ := annotate_ok_mono thenBranch hmore hthen
        rw [(annotate_ifElse_ok elseBranch hcondition hthen).1]
        exact agrees_ifElse hconditionAgrees hthenAgrees (annotate_again elseBranch hthenMore)
          (.inl hconditionLater) (.inl hthenLater)
  | .ret value, annotator, later, hmore => by
    have hvalue := value.annotate_again hmore
    show ((ret (value.annotate annotator).node).annotate later).Agrees _
    rw [annotate, annotate, hvalue.node, hvalue.result]
    exact ⟨⟨rfl, rfl⟩, rfl⟩
  | .block stmts, annotator, later, hmore => by
    have hstmts := annotateAll_again stmts hmore
    exact ⟨⟨congrArg block hstmts.node, hstmts.result⟩, hstmts.annotator⟩

theorem annotateAll_again : (stmts : List Stmt) → {annotator later : Annotator} →
    annotator.KnowsMore later →
    (annotateAll later (annotateAll annotator stmts).node).Agrees (annotateAll later stmts)
  | [], _, _, _ => .refl _
  | stmt :: stmts, annotator, later, hmore => by
    have hstmtAgrees := annotate_again stmt hmore
    rw [annotateAll, Pass.cons]
    cases hstmt : (stmt.annotate annotator).result with
    | error error => exact hstmtAgrees.cons (.refl _) (.inr rfl)
    | ok done =>
      obtain ⟨hstmtLater, -, hstmtMore⟩ := annotate_ok_mono stmt hmore hstmt
      exact hstmtAgrees.cons (annotateAll_again stmts hstmtMore) (.inl hstmtLater)

end

end Stmt

/-! ## Once more: declarations -/

namespace Decl

/-- A declaration whose overload is there already. -/
theorem annotate_of_registered (decl : Decl) (hparams : decl.checkParams = .ok ())
    {annotator : Annotator}
    (hreturn : annotator.overloads.returnType? decl.name decl.proto.argTypes =
      some decl.proto.returnType) :
    ∃ events, decl.annotate annotator =
      decl.annotateReady { annotator with scope := decl.paramScope } events := by
  have hfits : decl.proto.Fits annotator.overloads := by
    intro type hexisting
    exact Option.some_inj.1 (hexisting.symm.trans hreturn)
  obtain ⟨⟨scope, overloads, function⟩, events, hopens, hannotate⟩ := decl.exists_opens hparams hfits
  obtain ⟨-, rfl, rfl, hregistered⟩ := hopens
  cases hregistered with
  | there _ => exact ⟨events, hannotate⟩
  | added hfresh =>
    rw [hreturn] at hfresh
    cases hfresh

/-- A declaration that was annotated before comes out as if it were new, if the overloads are still
known. -/
theorem annotate_again (decl : Decl) {annotator later : Annotator}
    (hextends : (decl.annotate annotator).annotator.overloads.Extends later.overloads) :
    ((decl.annotate annotator).node.annotate later).Agrees (decl.annotate later) := by
  rcases decl.annotate_outcomes annotator with ⟨_, _, -, hannotate⟩ |
    ⟨known, _, hopens, hannotate⟩ <;> rw [hannotate] at hextends ⊢
  · exact .refl _
  · rw [overloads_annotateReady] at hextends
    obtain ⟨proto, _ | body⟩ := decl
    · exact .refl _
    · have hreturn := hextends.returnType? hopens.registered.returnType?
      let tried : Decl := ⟨proto, some (body.annotate (within known proto)).node⟩
      obtain ⟨_, hagain⟩ := tried.annotate_of_registered hopens.params hreturn
      obtain ⟨_, hfresh⟩ := annotate_of_registered _ hopens.params hreturn
      have hmore : (within known proto).KnowsMore
          (within { later with scope := tried.paramScope } proto) :=
        ⟨hopens.scope.symm, rfl, hextends.resolve⟩
      have hbody := body.annotate_again hmore
      show (tried.annotate later).Agrees _
      rw [hagain, hfresh]
      exact ⟨⟨congrArg (fun body => Decl.mk proto (some body)) hbody.node, hbody.result⟩,
        congrArg (fun left : Annotator => { left with function := none }) hbody.annotator⟩

/-- A declaration that has been annotated with success is annotated with success from then on, in
the same way, and adds nothing. -/
theorem annotate_ok_mono {decl : Decl} {annotator later : Annotator}
    (hresult : (decl.annotate annotator).result = .ok ())
    (hextends : (decl.annotate annotator).annotator.overloads.Extends later.overloads) :
    (decl.annotate later).result = .ok () ∧
      (decl.annotate later).node = (decl.annotate annotator).node ∧
      (decl.annotate later).annotator.overloads = later.overloads := by
  rcases decl.annotate_outcomes annotator with ⟨_, _, -, hannotate⟩ |
    ⟨known, _, hopens, hannotate⟩ <;> rw [hannotate] at hresult hextends ⊢
  · cases hresult
  · rw [overloads_annotateReady] at hextends
    have hreturn := hextends.returnType? hopens.registered.returnType?
    obtain ⟨_, hlater⟩ := decl.annotate_of_registered hopens.params hreturn
    rw [hlater, overloads_annotateReady]
    obtain ⟨proto, _ | body⟩ := decl
    · exact ⟨rfl, rfl, rfl⟩
    · have hmore : (within known proto).KnowsMore
          (within { later with scope := paramScope ⟨proto, some body⟩ } proto) :=
        ⟨hopens.scope.symm, rfl, hextends.resolve⟩
      obtain ⟨hbody, hnode, -⟩ := body.annotate_ok_mono hmore hresult
      exact ⟨hbody, congrArg (fun body => Decl.mk proto (some body)) hnode, rfl⟩

/-- Declarations that have been annotated with success are annotated with success once more, and
nothing changes. -/
theorem annotateAll_twice {decls : List Decl} {annotator later : Annotator}
    (hresult : (annotateAll annotator decls).result = .ok ())
    (hextends : (annotateAll annotator decls).annotator.overloads.Extends later.overloads) :
    let twice := annotateAll later (annotateAll annotator decls).node
    twice.result = .ok () ∧ twice.node = (annotateAll annotator decls).node ∧
      twice.annotator.overloads = later.overloads := by
  induction decls generalizing annotator later with
  | nil => exact ⟨rfl, rfl, rfl⟩
  | cons decl decls ih =>
    obtain ⟨hdecl, hdecls⟩ := annotateAll_cons_ok_iff.1 hresult
    rw [annotateAll_cons_of_ok decls hdecl] at hextends
    have hknown := (extends_annotateAll decls (decl.annotate annotator).annotator).trans hextends
    have hagain := annotate_again decl hknown
    obtain ⟨hlater, hnode, hoverloads⟩ := annotate_ok_mono hdecl hknown
    rw [← hagain.result] at hlater
    rw [← hagain.node] at hnode
    rw [← hagain.annotator] at hoverloads
    obtain ⟨htwice, hnodes, hsame⟩ := ih hdecls (hoverloads ▸ hextends)
    rw [annotateAll_cons_of_ok decls hdecl]
    refine ⟨annotateAll_cons_ok_iff.2 ⟨hlater, htwice⟩, ?_, ?_⟩
    · rw [annotateAll_cons_of_ok _ hlater, hnode, hnodes]
    · rw [annotateAll_cons_of_ok _ hlater, hsame, hoverloads]

end Decl

/-! ## Attempts -/

/-- A declaration and the annotator that it is tried with. -/
structure Trial where
  annotator : Annotator
  decl : Decl

/-- What can happen in the course of a trial. -/
inductive Attempt where
  /-- The declaration is annotated, as the last time left it. -/
  | again
  /-- An overload is registered. -/
  | register (name : String) (signature : Signature)
  /-- Another declaration is annotated. -/
  | another (decl : Decl)

/-- The trial after an attempt, also if that failed. -/
def Attempt.run (trial : Trial) : Attempt → Trial
  | .again =>
    ⟨(trial.decl.annotate trial.annotator).annotator, (trial.decl.annotate trial.annotator).node⟩
  | .register name signature =>
    { trial with annotator := (trial.annotator.register name signature).1 }
  | .another decl => { trial with annotator := (decl.annotate trial.annotator).annotator }

namespace Trial

/-- The declaration is as it was at the start, or as an annotation left it whose overloads are still
known. -/
def Stems (trial : Trial) (decl : Decl) : Prop :=
  trial.decl = decl ∨ ∃ earlier, trial.decl = (decl.annotate earlier).node ∧
    (decl.annotate earlier).annotator.overloads.Extends trial.annotator.overloads

variable {trial : Trial} {decl : Decl}

theorem Stems.agrees (hstems : trial.Stems decl) :
    (trial.decl.annotate trial.annotator).Agrees (decl.annotate trial.annotator) := by
  rcases hstems with hnew | ⟨earlier, hnode, hextends⟩
  · rw [hnew]
    exact .refl _
  · rw [hnode]
    exact decl.annotate_again hextends

theorem Stems.of_extends {later : Annotator} (hstems : trial.Stems decl)
    (hextends : trial.annotator.overloads.Extends later.overloads) :
    Stems { trial with annotator := later } decl := by
  rcases hstems with hnew | ⟨earlier, hnode, hearlier⟩
  · exact .inl hnew
  · exact .inr ⟨earlier, hnode, hearlier.trans hextends⟩

theorem Stems.run (hstems : trial.Stems decl) (attempt : Attempt) :
    (attempt.run trial).Stems decl := by
  cases attempt with
  | again =>
    have hagrees := hstems.agrees
    refine .inr ⟨trial.annotator, hagrees.node, ?_⟩
    rw [Attempt.run, hagrees.annotator]
    exact .refl
  | register name signature =>
    exact hstems.of_extends (trial.annotator.extends_register name signature)
  | another other => exact hstems.of_extends (other.extends_annotate trial.annotator)

theorem Stems.runAll (hstems : trial.Stems decl) (attempts : List Attempt) :
    (attempts.foldl Attempt.run trial).Stems decl := by
  induction attempts generalizing trial with
  | nil => exact hstems
  | cons attempt attempts ih => exact ih (hstems.run attempt)

end Trial

/-- However often a declaration has been tried, with success or not, and whatever was registered
and annotated in between, the next annotation gives the same result, the same tree and the same
annotator as that of a copy made before all of it, with the tags it had then, if any.  A module
that has been annotated with success is annotated with success once more, and neither the module
nor the table changes. -/
theorem retry_transparent (annotator : Annotator) (decl : Decl) (attempts : List Attempt)
    (module : Module) :
    (let trial := attempts.foldl Attempt.run ⟨annotator, decl⟩
      let again := trial.decl.annotate trial.annotator
      let fresh := decl.annotate trial.annotator
      again.result = fresh.result ∧ again.node = fresh.node ∧ again.annotator = fresh.annotator) ∧
    ((module.annotate annotator).result = .ok () →
      let once := module.annotate annotator
      let twice := once.node.annotate once.annotator
      twice.result = .ok () ∧ twice.node = once.node ∧
        twice.annotator.overloads = once.annotator.overloads) := by
  refine ⟨?_, fun hresult => ?_⟩
  · have hstart : Trial.Stems ⟨annotator, decl⟩ decl := .inl rfl
    have hagrees := (hstart.runAll attempts).agrees
    exact ⟨hagrees.result, hagrees.node, hagrees.annotator⟩
  · obtain ⟨htwice, hnode, hoverloads⟩ := Decl.annotateAll_twice hresult .refl
    exact ⟨htwice, congrArg (Module.mk module.name) hnode, hoverloads⟩

/-- A function that returns `g(-1)`.  As long as `g` is not declared the argument alone gets its
tag, and the call gets its own as soon as `g` is registered. -/
example :
    let caller (argTag callTag : Tag) : Decl := ⟨⟨"f", [], intType⟩,
      some (.ret (.call "g" [.unary "-" (.int 1 (some intType)) argTag] callTag))⟩
    ([.again].foldl Attempt.run ⟨.initial, caller none none⟩).decl = caller (some intType) none ∧
      ([.again, .register "g" ⟨[intType], intType⟩, .again].foldl Attempt.run
        ⟨.initial, caller none none⟩).decl = caller (some intType) (some intType) :=
  ⟨rfl, rfl⟩

end Frontend
