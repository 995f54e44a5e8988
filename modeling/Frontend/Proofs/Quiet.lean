import Frontend.Decl.Parser
import Frontend.Proofs.Lookahead.Basic
import Mathlib.Logic.Function.Iterate

/-!
# Parsers that only move on

Most parsers record nothing themselves: whatever they leave in the log are the tokens that
they fetched.  `Quiet` says how such a parser is built.  All parsers up to those of a
definition and of an external declaration are quiet; the parser of a declaration is the first
that records something.

`Quiet.moves` is what follows for a run: it ends in a state that is reached by moving on, from
any state and with an answer or an error alike.
-/

namespace Frontend.Parser

/-- The parser is put together from steps of which none records an event of its own. -/
inductive Quiet : {α : Type} → Parser α → Prop
  | pure {α : Type} (a : α) : Quiet (pure a)
  | throw {α : Type} (error : Error) : Quiet (throw error : Parser α)
  | current : Quiet current
  | advance : Quiet advance
  | bind {α β : Type} {first : Parser α} {second : α → Parser β} (hfirst : Quiet first)
      (hsecond : ∀ a, Quiet (second a)) : Quiet (first >>= second)
  | collect {α : Type} {step : Parser (Option α)} (hstep : Quiet step) : Quiet (collect step)

variable {α β : Type}

/-! ## Runs -/

/-- Every run of the parser moves on by some steps and does nothing else to the state. -/
def Moves (parser : Parser α) : Prop :=
  ∀ state, ∃ steps, (parser.outcome state).2 = State.advance^[steps] state

theorem Moves.bind {first : Parser α} {second : α → Parser β} (hfirst : Moves first)
    (hsecond : ∀ a, Moves (second a)) : Moves (first >>= second) := by
  intro state
  obtain ⟨steps, hsteps⟩ := hfirst state
  rcases hrun : first.outcome state with ⟨error | a, middle⟩ <;> rw [hrun] at hsteps
  · rw [outcome_bind_error hrun]
    exact ⟨steps, hsteps⟩
  · obtain ⟨steps', hsteps'⟩ := hsecond a middle
    rw [outcome_bind_ok hrun]
    refine ⟨steps' + steps, ?_⟩
    rw [Function.iterate_add_apply, ← hsteps]
    exact hsteps'

/-- The induction is on what remains to be read, as the repetition itself is. -/
theorem Moves.collect {step : Parser (Option α)} (hstep : Moves step) :
    Moves (Parser.collect step) := by
  intro state
  induction hremaining : state.remaining using Nat.strongRecOn generalizing state with
  | ind remaining ih =>
    obtain ⟨steps, hsteps⟩ := hstep state
    unfold outcome at hsteps ⊢
    rw [Parser.collect]
    rcases heq : step state with ⟨_ | item, middle⟩ | ⟨error, middle⟩ <;> rw [heq] at hsteps
    · exact ⟨steps, hsteps⟩
    · by_cases hless : middle.remaining < state.remaining
      · obtain ⟨steps', hsteps'⟩ := ih _ (hremaining ▸ hless) middle rfl
        refine ⟨steps' + steps, ?_⟩
        rw [Function.iterate_add_apply, ← hsteps]
        simp only [if_pos hless]
        unfold outcome at hsteps'
        cases hrest : Parser.collect step middle <;> rw [hrest] at hsteps' <;> exact hsteps'
      · simp only [if_neg hless]
        exact ⟨steps, hsteps⟩
    · exact ⟨steps, hsteps⟩

namespace Quiet

theorem moves {parser : Parser α} (hquiet : Quiet parser) : Moves parser := by
  induction hquiet with
  | pure | throw | current => exact fun _ => ⟨0, rfl⟩
  | advance => exact fun _ => ⟨1, rfl⟩
  | bind _ _ ihFirst ihSecond => exact ihFirst.bind ihSecond
  | collect _ ih => exact ih.collect

/-! ## Steps -/

theorem ite {condition : Prop} [Decidable condition] {first second : Parser α}
    (hfirst : Quiet first) (hsecond : Quiet second) :
    Quiet (if condition then first else second) := by
  split
  · exact hfirst
  · exact hsecond

theorem unexpected (expected : String) : Quiet (unexpected expected : Parser α) :=
  .bind .current fun _ => .throw _

theorem expect (kind : Token.Kind) (expected : String) : Quiet (expect kind expected) :=
  .bind .current fun _ => .ite .advance (.unexpected expected)

theorem expectMisc (text : String) : Quiet (expectMisc text) :=
  .bind .current fun _ => .ite .advance (.unexpected text)

theorem discard {parser : Parser α} (hquiet : Quiet parser) : Quiet (Functor.discard parser) :=
  .bind hquiet fun _ => .pure ()

/-- A step with a guard that fails. -/
theorem guarded {condition : Prop} [Decidable condition] {second : Parser α} (expected : String)
    (hsecond : Quiet second) :
    Quiet (do
      if condition then Parser.unexpected expected
      second) :=
  .ite (.bind (.unexpected expected) fun _ => hsecond) hsecond

end Quiet

/-! ## Expressions -/

theorem quiet_intLiteral : Quiet intLiteral :=
  .bind (.expect _ _) fun _ => .ite (.pure _) (.throw _)

theorem quiet_floatLiteral : Quiet floatLiteral := by
  refine .bind (.expect _ _) fun token => ?_
  split
  · exact .pure _
  · exact .throw _

theorem quiet_boolLiteral : Quiet boolLiteral :=
  .bind (.expect _ _) fun _ => .ite (.pure _) (.ite (.pure _) (.throw _))

section Expressions

variable {inner : Parser Expr}

theorem quiet_chainOver (hinner : Quiet inner) (least : Int) (first : Expr) :
    Quiet (chainOver inner least first) := by
  have hlink : Quiet (linkOver inner least) :=
    .bind .current fun _ => .ite (.pure _) <|
      .bind .advance fun _ => .bind hinner fun _ => .pure _
  exact .bind hlink.collect fun _ => .pure _

theorem quiet_exprOver (hinner : Quiet inner) : Quiet (exprOver inner) :=
  .bind hinner fun first => quiet_chainOver hinner 0 first

theorem quiet_parenthesizedOver (hinner : Quiet inner) : Quiet (parenthesizedOver inner) :=
  .bind (.discard (.expectMisc _)) fun _ => .bind (quiet_exprOver hinner) fun _ =>
    .bind (.discard (.expectMisc _)) fun _ => .pure _

theorem quiet_unaryOver (hinner : Quiet inner) : Quiet (unaryOver inner) :=
  .bind (.expect _ _) fun _ => .bind hinner fun _ => .pure _

theorem quiet_moreArgOver (hinner : Quiet inner) : Quiet (moreArgOver inner) := by
  refine .bind .current fun _ => .ite (.pure _) <| .bind .current fun _ => .guarded _ ?_
  exact .bind (.discard .advance) fun _ => .bind (quiet_exprOver hinner) fun _ => .pure _

theorem quiet_argumentsOver (hinner : Quiet inner) : Quiet (argumentsOver inner) := by
  have hclose (args : List Expr) : Quiet (do
      discard <| expectMisc ")"
      return args) :=
    .bind (.discard (.expectMisc _)) fun _ => .pure _
  refine .bind .current fun token => .ite (.bind (.pure _) hclose) ?_
  exact .bind (quiet_exprOver hinner) fun _ => .bind (quiet_moreArgOver hinner).collect fun _ =>
    .bind (.pure _) hclose

theorem quiet_identifierOrCallOver (hinner : Quiet inner) :
    Quiet (identifierOrCallOver inner) := by
  refine .bind (.expect _ _) fun _ => .bind .current fun _ => .ite ?_ (.pure _)
  exact .bind (.discard .advance) fun _ => .bind (quiet_argumentsOver hinner) fun _ => .pure _

theorem quiet_primaryOver (hinner : Quiet inner) : Quiet (primaryOver inner) := by
  refine .bind .current fun token => ?_
  split
  · exact quiet_identifierOrCallOver hinner
  · exact .bind quiet_intLiteral fun _ => .pure _
  · exact .bind quiet_floatLiteral fun _ => .pure _
  · exact .bind quiet_boolLiteral fun _ => .pure _
  · exact .ite (quiet_parenthesizedOver hinner) (.unexpected _)
  · exact .ite (quiet_unaryOver hinner) (.unexpected _)
  · exact .unexpected _

end Expressions

theorem quiet_innerPrimary (levels : Nat) : Quiet (innerPrimary levels) := by
  induction levels with
  | zero => exact .throw _
  | succ levels ih => exact quiet_primaryOver ih

theorem quiet_expr (levels : Nat) : Quiet (expr levels) :=
  quiet_exprOver (quiet_primaryOver (quiet_innerPrimary levels))

theorem quiet_arguments (levels : Nat) : Quiet (arguments levels) :=
  quiet_argumentsOver (quiet_innerPrimary levels)

/-! ## Statements -/

theorem quiet_letVar : Quiet letVar :=
  .bind (.discard (.expect _ _)) fun _ => .bind (.expect _ _) fun _ =>
    .bind (.discard (.expectMisc _)) fun _ => .bind (.expect _ _) fun _ => .pure _

theorem quiet_assignOrCall (levels : Nat) : Quiet (assignOrCall levels) := by
  refine .bind (.expect _ _) fun _ => .bind .current fun _ => .ite ?_ ?_
  · exact .bind (.discard .advance) fun _ => .bind (quiet_expr levels) fun _ => .pure _
  · refine .bind .current fun _ => .ite ?_ (.unexpected _)
    exact .bind (.discard .advance) fun _ => .bind (quiet_arguments levels) fun _ => .pure _

theorem quiet_ret (levels : Nat) : Quiet (ret levels) :=
  .bind (.discard (.expect _ _)) fun _ => .bind (quiet_expr levels) fun _ => .pure _

section Statements

variable {inner : Parser Stmt}

theorem quiet_blockOver (hinner : Quiet inner) : Quiet (blockOver inner) := by
  have hitem : Quiet (itemOver inner) :=
    .bind .current fun _ => .ite (.pure _) <| .bind .current fun _ => .guarded _ <|
      .bind hinner fun _ => .pure _
  exact .bind (.discard (.expectMisc _)) fun _ => .bind hitem.collect fun _ =>
    .bind (.discard .advance) fun _ => .pure _

theorem quiet_ifElseOver (levels : Nat) (hinner : Quiet inner) :
    Quiet (ifElseOver levels inner) := by
  have hblock := quiet_blockOver hinner
  refine .bind (.discard (.expect _ _)) fun _ => .bind (quiet_expr levels) fun condition => ?_
  refine .bind hblock fun thenBranch => .bind (.discard (.expect _ _)) fun _ => ?_
  refine .bind .current fun token => .ite ?_ ?_
  · exact .bind hinner fun _ => .pure _
  · exact .bind hblock fun _ => .pure _

theorem quiet_stmtOver (levels : Nat) (hinner : Quiet inner) : Quiet (stmtOver levels inner) := by
  refine .bind .current fun token => ?_
  split
  · exact quiet_letVar
  · exact quiet_assignOrCall levels
  · exact quiet_ifElseOver levels hinner
  · exact quiet_ret levels
  · exact .ite (quiet_blockOver hinner) (.unexpected _)
  · exact .unexpected _

end Statements

theorem quiet_innerStmt (levels : Nat) : Quiet (innerStmt levels) := by
  induction levels with
  | zero => exact .throw _
  | succ levels ih => exact quiet_stmtOver levels ih

theorem quiet_block (levels : Nat) : Quiet (block levels) :=
  quiet_blockOver (quiet_innerStmt levels)

/-! ## Declarations -/

theorem quiet_param : Quiet param :=
  .bind (.expect _ _) fun _ => .bind (.discard (.expectMisc _)) fun _ =>
    .bind (.expect _ _) fun _ => .pure _

theorem quiet_params : Quiet params := by
  have hmore : Quiet moreParam :=
    .bind .current fun _ => .ite
      (.bind (.discard .advance) fun _ => .bind quiet_param fun _ => .pure _) (.pure _)
  refine .bind .current fun _ => .ite (.pure _) ?_
  exact .bind quiet_param fun _ => .bind hmore.collect fun _ => .pure _

theorem quiet_proto : Quiet proto := by
  refine .bind (.expect _ _) fun _ => .bind (.discard (.expectMisc _)) fun _ => ?_
  refine .bind quiet_params fun _ => .bind (.discard (.expectMisc _)) fun _ => ?_
  exact .bind (.discard (.expectMisc _)) fun _ => .bind (.expect _ _) fun _ => .pure _

theorem quiet_definition (levels : Nat) : Quiet (definition levels) :=
  .bind (.discard (.expect _ _)) fun _ => .bind quiet_proto fun _ =>
    .bind (quiet_block levels) fun _ => .pure _

theorem quiet_externDecl : Quiet externDecl :=
  .bind (.discard (.expect _ _)) fun _ => .bind quiet_proto fun _ => .pure _

end Frontend.Parser
