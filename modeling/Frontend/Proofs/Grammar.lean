import Frontend.Binary64.Decimal
import Frontend.Decl.Basic
import Frontend.Expr.Basic
import Mathlib.Algebra.Group.Nat.Defs

/-!
# The grammar

Which lists of tokens are programs, and which tree each of them stands for.

Every relation here reads "these tokens derive that tree".  The relations of
expressions and statements have two numbers in front of the tokens.  The first is the
depth, the index of the nonterminal: what stands in parentheses, behind a minus sign,
in an argument list, in a block or after `else` as another choice has an index one
larger.  The second is the largest index in the derivation.  A limit on the nesting is
a bound on the second number, and nothing else in the grammar speaks of it.

With `d` for the depth, the productions are

    declarations = { 'def' proto block_0 | 'extern' proto }
    proto        = id '(' [ id ':' id { ',' id ':' id } ] ')' ':' id
    block_d      = '{' { statement_(d+1) } '}'
    statement_d  = 'let' id ':' id | id '=' expression_d | id args_d
                 | choice_d | 'return' expression_d | block_d
    choice_d     = 'if' expression_d block_d 'else' ( block_d | choice_(d+1) )
    expression_d = primary_d { op primary_d }
    primary_d    = id | id args_d | int | float | bool
                 | '(' expression_(d+1) ')' | '-' primary_(d+1)
    args_d       = '(' [ expression_(d+1) { ',' expression_(d+1) } ] ')'

where an `int` is below `2 ^ 31` and a `float` denotes a finite number.
-/

namespace Frontend.Grammar

/-- A token of punctuation. -/
def punct (text : String) : Token := ⟨.misc, text⟩

@[simp]
theorem isMisc_punct (text expected : String) :
    (punct text).isMisc expected = (text == expected) := rfl

/-- The sign in front of a negated primary. -/
def minus : Token := ⟨.op, "-"⟩

/-! ## Expressions -/

mutual

/-- The tokens of a primary. -/
inductive Primary : Nat → Nat → List Token → Expr → Prop
  | var {depth : Nat} {name : Token} (hname : name.kind = .identifier) :
      Primary depth depth [name] (.var name.text none)
  | call {depth top : Nat} {name : Token} {tokens : List Token} {args : List Expr}
      (hname : name.kind = .identifier) (hargs : Args depth top tokens args) :
      Primary depth top (name :: tokens) (.call name.text args none)
  | int {depth : Nat} {token : Token} (hkind : token.kind = .int)
      (hvalue : Text.decimalValue token.text.toList < 2 ^ 31) :
      Primary depth depth [token] (.int (Text.decimalValue token.text.toList) none)
  | float {depth : Nat} {token : Token} {value : Binary64} (hkind : token.kind = .float)
      (hvalue : Binary64.ofText? token.text = some value) (hfinite : value.isFinite = true) :
      Primary depth depth [token] (.float value none)
  | bool {depth : Nat} {token : Token} (hkind : token.kind = .bool) :
      Primary depth depth [token] (.bool (token.text == "true") none)
  | paren {depth top : Nat} {tokens : List Token} {expr : Expr}
      (hexpr : Expression (depth + 1) top tokens expr) :
      Primary depth top (punct "(" :: (tokens ++ [punct ")"])) expr
  | unary {depth top : Nat} {tokens : List Token} {operand : Expr}
      (hoperand : Primary (depth + 1) top tokens operand) :
      Primary depth top (minus :: tokens) (.unary "-" operand none)

/-- The tokens of an expression: a chain of primaries with operators between them. -/
inductive Expression : Nat → Nat → List Token → Expr → Prop
  | chain {depth top top' : Nat} {tokens tokens' : List Token} {first : Expr}
      {links : List (String × Expr)} (hfirst : Primary depth top tokens first)
      (hlinks : Links depth top' tokens' links) :
      Expression depth (max top top') (tokens ++ tokens') (.ofChain first links)

/-- The tokens of a chain after its first primary. -/
inductive Links : Nat → Nat → List Token → List (String × Expr) → Prop
  | nil {depth : Nat} : Links depth depth [] []
  | cons {depth top top' : Nat} {operator : Token} {tokens tokens' : List Token}
      {operand : Expr} {links : List (String × Expr)} (hkind : operator.kind = .op)
      (hoperand : Primary depth top tokens operand)
      (hlinks : Links depth top' tokens' links) :
      Links depth (max top top') (operator :: (tokens ++ tokens'))
        ((operator.text, operand) :: links)

/-- The tokens of the arguments of a call, with their parentheses. -/
inductive Args : Nat → Nat → List Token → List Expr → Prop
  | none {depth : Nat} : Args depth depth [punct "(", punct ")"] []
  | some {depth top top' : Nat} {tokens tokens' : List Token} {arg : Expr} {args : List Expr}
      (harg : Expression (depth + 1) top tokens arg)
      (hargs : MoreArgs depth top' tokens' args) :
      Args depth (max top top') (punct "(" :: (tokens ++ (tokens' ++ [punct ")"])))
        (arg :: args)

/-- The tokens of the arguments after the first one. -/
inductive MoreArgs : Nat → Nat → List Token → List Expr → Prop
  | nil {depth : Nat} : MoreArgs depth depth [] []
  | cons {depth top top' : Nat} {tokens tokens' : List Token} {arg : Expr} {args : List Expr}
      (harg : Expression (depth + 1) top tokens arg)
      (hargs : MoreArgs depth top' tokens' args) :
      MoreArgs depth (max top top') (punct "," :: (tokens ++ tokens')) (arg :: args)

end

/-! ## Statements -/

mutual

/-- The tokens of a statement. -/
inductive Statement : Nat → Nat → List Token → Stmt → Prop
  | letVar {depth : Nat} {keyword name type : Token} (hkeyword : keyword.kind = .kwLet)
      (hname : name.kind = .identifier) (htype : type.kind = .identifier) :
      Statement depth depth [keyword, name, punct ":", type] (.letVar name.text type.text)
  | assign {depth top : Nat} {name : Token} {tokens : List Token} {value : Expr}
      (hname : name.kind = .identifier) (hvalue : Expression depth top tokens value) :
      Statement depth top (name :: punct "=" :: tokens) (.assign name.text value)
  | call {depth top : Nat} {name : Token} {tokens : List Token} {args : List Expr}
      (hname : name.kind = .identifier) (hargs : Args depth top tokens args) :
      Statement depth top (name :: tokens) (.call name.text args)
  | choice {depth top : Nat} {tokens : List Token} {stmt : Stmt}
      (hchoice : Choice depth top tokens stmt) : Statement depth top tokens stmt
  | ret {depth top : Nat} {keyword : Token} {tokens : List Token} {value : Expr}
      (hkeyword : keyword.kind = .kwReturn) (hvalue : Expression depth top tokens value) :
      Statement depth top (keyword :: tokens) (.ret value)
  | block {depth top : Nat} {tokens : List Token} {stmt : Stmt}
      (hblock : Block depth top tokens stmt) : Statement depth top tokens stmt

/-- The tokens of a choice between two branches. -/
inductive Choice : Nat → Nat → List Token → Stmt → Prop
  | otherwise {depth top top' top'' : Nat} {keyword keyword' : Token}
      {tokens tokens' tokens'' : List Token} {condition : Expr} {thenBranch elseBranch : Stmt}
      (hkeyword : keyword.kind = .kwIf) (hcondition : Expression depth top tokens condition)
      (hthen : Block depth top' tokens' thenBranch) (hkeyword' : keyword'.kind = .kwElse)
      (helse : Block depth top'' tokens'' elseBranch) :
      Choice depth (max top (max top' top''))
        (keyword :: (tokens ++ (tokens' ++ keyword' :: tokens'')))
        (.ifElse condition thenBranch elseBranch)
  | another {depth top top' top'' : Nat} {keyword keyword' : Token}
      {tokens tokens' tokens'' : List Token} {condition : Expr} {thenBranch elseBranch : Stmt}
      (hkeyword : keyword.kind = .kwIf) (hcondition : Expression depth top tokens condition)
      (hthen : Block depth top' tokens' thenBranch) (hkeyword' : keyword'.kind = .kwElse)
      (helse : Choice (depth + 1) top'' tokens'' elseBranch) :
      Choice depth (max top (max top' top''))
        (keyword :: (tokens ++ (tokens' ++ keyword' :: tokens'')))
        (.ifElse condition thenBranch elseBranch)

/-- The tokens of a block. -/
inductive Block : Nat → Nat → List Token → Stmt → Prop
  | braces {depth top : Nat} {tokens : List Token} {stmts : List Stmt}
      (hstmts : Statements depth top tokens stmts) :
      Block depth top (punct "\x7b" :: (tokens ++ [punct "\x7d"])) (.block stmts)

/-- The tokens between the braces of a block. -/
inductive Statements : Nat → Nat → List Token → List Stmt → Prop
  | nil {depth : Nat} : Statements depth depth [] []
  | cons {depth top top' : Nat} {tokens tokens' : List Token} {stmt : Stmt} {stmts : List Stmt}
      (hstmt : Statement (depth + 1) top tokens stmt)
      (hstmts : Statements depth top' tokens' stmts) :
      Statements depth (max top top') (tokens ++ tokens') (stmt :: stmts)

end

/-! ## Declarations -/

/-- The tokens of a parameter. -/
inductive Parameter : List Token → Param → Prop
  | typed {name type : Token} (hname : name.kind = .identifier)
      (htype : type.kind = .identifier) :
      Parameter [name, punct ":", type] ⟨name.text, type.text⟩

/-- The tokens of the parameters after the first one. -/
inductive MoreParams : List Token → List Param → Prop
  | nil : MoreParams [] []
  | cons {tokens tokens' : List Token} {param : Param} {params : List Param}
      (hparam : Parameter tokens param) (hparams : MoreParams tokens' params) :
      MoreParams (punct "," :: (tokens ++ tokens')) (param :: params)

/-- The tokens of the parameters of a function. -/
inductive Params : List Token → List Param → Prop
  | none : Params [] []
  | some {tokens tokens' : List Token} {param : Param} {params : List Param}
      (hparam : Parameter tokens param) (hparams : MoreParams tokens' params) :
      Params (tokens ++ tokens') (param :: params)

/-- The tokens of a prototype. -/
inductive Proto : List Token → Prototype → Prop
  | typed {name type : Token} {tokens : List Token} {params : List Param}
      (hname : name.kind = .identifier) (hparams : Params tokens params)
      (htype : type.kind = .identifier) :
      Proto (name :: punct "(" :: (tokens ++ [punct ")", punct ":", type]))
        ⟨name.text, params, type.text⟩

/-- The tokens of a declaration. -/
inductive Declaration : Nat → List Token → Decl → Prop
  | defined {top : Nat} {keyword : Token} {tokens tokens' : List Token} {proto : Prototype}
      {body : Stmt} (hkeyword : keyword.kind = .kwDef) (hproto : Proto tokens proto)
      (hbody : Block 0 top tokens' body) :
      Declaration top (keyword :: (tokens ++ tokens')) ⟨proto, some body⟩
  | external {keyword : Token} {tokens : List Token} {proto : Prototype}
      (hkeyword : keyword.kind = .kwExtern) (hproto : Proto tokens proto) :
      Declaration 0 (keyword :: tokens) ⟨proto, none⟩

/-- The tokens of the declarations of a module. -/
inductive Declarations : Nat → List Token → List Decl → Prop
  | nil : Declarations 0 [] []
  | cons {top top' : Nat} {tokens tokens' : List Token} {decl : Decl} {decls : List Decl}
      (hdecl : Declaration top tokens decl) (hdecls : Declarations top' tokens' decls) :
      Declarations (max top top') (tokens ++ tokens') (decl :: decls)

/-- Whether the tokens are a program in which no index exceeds `limit`. -/
def Derivable (limit : Nat) (tokens : List Token) : Prop :=
  ∃ top decls, top ≤ limit ∧ Declarations top tokens decls

/-! ## Depths and first tokens -/

mutual

theorem Primary.depth_le {depth top : Nat} {tokens : List Token} {expr : Expr} :
    Primary depth top tokens expr → depth ≤ top
  | .var _ | .int _ _ | .float _ _ _ | .bool _ => Nat.le_refl _
  | .call _ hargs => hargs.depth_le
  | .paren hexpr => Nat.le_of_succ_le hexpr.depth_le
  | .unary hoperand => Nat.le_of_succ_le hoperand.depth_le

theorem Expression.depth_le {depth top : Nat} {tokens : List Token} {expr : Expr} :
    Expression depth top tokens expr → depth ≤ top
  | .chain hfirst _ => Nat.le_trans hfirst.depth_le (Nat.le_max_left _ _)

theorem Args.depth_le {depth top : Nat} {tokens : List Token} {args : List Expr} :
    Args depth top tokens args → depth ≤ top
  | .none => Nat.le_refl _
  | .some harg _ => Nat.le_trans (Nat.le_of_succ_le harg.depth_le) (Nat.le_max_left _ _)

end

mutual

theorem Statement.depth_le {depth top : Nat} {tokens : List Token} {stmt : Stmt} :
    Statement depth top tokens stmt → depth ≤ top
  | .letVar _ _ _ => Nat.le_refl _
  | .assign _ hvalue | .ret _ hvalue => hvalue.depth_le
  | .call _ hargs => hargs.depth_le
  | .choice hchoice => hchoice.depth_le
  | .block hblock => hblock.depth_le

theorem Choice.depth_le {depth top : Nat} {tokens : List Token} {stmt : Stmt} :
    Choice depth top tokens stmt → depth ≤ top
  | .otherwise _ hcondition _ _ _ | .another _ hcondition _ _ _ =>
    Nat.le_trans hcondition.depth_le (Nat.le_max_left _ _)

theorem Block.depth_le {depth top : Nat} {tokens : List Token} {stmt : Stmt} :
    Block depth top tokens stmt → depth ≤ top
  | .braces hstmts => hstmts.depth_le

theorem Statements.depth_le {depth top : Nat} {tokens : List Token} {stmts : List Stmt} :
    Statements depth top tokens stmts → depth ≤ top
  | .nil => Nat.le_refl _
  | .cons hstmt _ => Nat.le_trans (Nat.le_of_succ_le hstmt.depth_le) (Nat.le_max_left _ _)

end

theorem Primary.ne_nil {depth top : Nat} {tokens : List Token} {expr : Expr}
    (hprimary : Primary depth top tokens expr) : tokens ≠ [] := by
  cases hprimary <;> simp

theorem Statement.ne_nil {depth top : Nat} {tokens : List Token} {stmt : Stmt}
    (hstmt : Statement depth top tokens stmt) : tokens ≠ [] := by
  cases hstmt with
  | choice hchoice => cases hchoice <;> simp
  | block hblock => cases hblock; simp
  | letVar | assign | call | ret => simp

theorem Declaration.ne_nil {top : Nat} {tokens : List Token} {decl : Decl}
    (hdecl : Declaration top tokens decl) : tokens ≠ [] := by
  cases hdecl <;> simp

end Frontend.Grammar
