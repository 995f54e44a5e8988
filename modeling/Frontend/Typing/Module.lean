import Frontend.Decl.Parser
import Frontend.Typing.Stmt

/-!
# Annotation of declarations and modules

A declaration starts with only its parameters in scope.  Its overload is added before its body
is annotated, so a function can call itself, and the overloads of earlier declarations stay.

A source is compiled by parsing it and annotating the module, with a new annotator.
-/

namespace Frontend

/-- The body of a function with the tags of its expressions filled.  The annotator knows which
function it is only meanwhile. -/
def Stmt.annotateBody (annotator : Annotator) (proto : Prototype) (body : Stmt) : Pass Stmt :=
  let pass := body.annotate { annotator with function := some (proto.name, proto.returnType) }
  { pass with annotator := { pass.annotator with function := none } }

/-- The declaration with the tags in its body filled. -/
def Decl.annotate (annotator : Annotator) (decl : Decl) : Pass Decl :=
  let start := Event.annotating decl.name decl.isExtern
  match annotator.clearVariables.declareParams decl.name decl.proto.params with
  | (annotator, .error error) => ⟨⟨decl, [start], .error error⟩, annotator⟩
  | (annotator, .ok ()) =>
    match annotator.register decl.name decl.proto.signature with
    | (annotator, events, .error error) => ⟨⟨decl, start :: events, .error error⟩, annotator⟩
    | (annotator, events, .ok ()) =>
      match decl.body with
      | none => ⟨⟨decl, start :: events, .ok ()⟩, annotator⟩
      | some body =>
        let body := body.annotateBody annotator decl.proto
        ⟨⟨{ decl with body := some body.node }, start :: events ++ body.events, body.result⟩,
          body.annotator⟩

/-- Several declarations with the tags in their bodies filled. -/
def Decl.annotateAll (annotator : Annotator) : List Decl → Pass (List Decl)
  | [] => ⟨⟨[], [], .ok ()⟩, annotator⟩
  | decl :: decls =>
    (decl.annotate annotator).cons decls fun annotator => Decl.annotateAll annotator decls

/-- The module with the tags of all expressions filled. -/
def Module.annotate (annotator : Annotator) (module : Module) : Pass Module :=
  let decls := Decl.annotateAll annotator module.decls
  ⟨⟨{ module with decls := decls.node }, decls.events, decls.result⟩, decls.annotator⟩

/-! ## Compilation -/

/-- The result of a compilation: the annotated module and what is known about it. -/
structure Compiled where
  module : Module
  annotator : Annotator

/-- Parses a source into a module and annotates it; with what happened on the way. -/
def compile (name source : String) : List Event × Except Error Compiled :=
  match Module.parse name source with
  | (.error error, state) => (state.log.toList, .error error)
  | (.ok module, state) =>
    let pass := module.annotate .initial
    (state.log.toList ++ pass.events, pass.result.map fun () => ⟨pass.node, pass.annotator⟩)

end Frontend
