import OpenApiClient.Text.CodePoint

/-!
# TypeScript Declarations

The declarations that make up a generated source file: interfaces, and classes whose methods have
bodies of nested statements. Types and expressions stand in them as text.
-/

namespace OpenApiClient.TypeScript

/-! ## Interfaces -/

/-- A member of an interface. -/
structure Member where
  name : Text
  annotation : Text
  optional : Bool
  deriving DecidableEq, Repr

/-- An exported interface. -/
structure Interface where
  name : Text
  members : List Member
  deriving DecidableEq, Repr

/-! ## Statements -/

/-- A statement of a method body. A block indents its body between an opening and a closing line. -/
inductive Statement where
  | line (text : Text)
  | blank
  | block (opener : Text) (body : List Statement) (closer : Text)
  deriving Repr

/-! ## Classes -/

/-- A field of a class. -/
structure ClassField where
  name : Text
  annotation : Text
  modifiers : List Text := []
  deriving DecidableEq, Repr

/-- A parameter of a method. -/
structure MethodParameter where
  name : Text
  annotation : Text
  default? : Option Text := none
  deriving DecidableEq, Repr

/-- A method whose body consists of statements of type `σ`; a constructor has no return type. -/
structure Method (σ : Type) where
  name : Text
  parameters : List MethodParameter
  returnType : Option Text
  body : List σ
  modifiers : List Text := []
  typeParameters : List Text := []
  deriving Repr

/-- An exported class. -/
structure ClassDeclaration where
  name : Text
  fields : List ClassField
  methods : List (Method Statement)
  deriving Repr

/-! ## Files -/

/-- A top-level declaration. -/
inductive Declaration where
  | interface (declaration : Interface)
  | class (declaration : ClassDeclaration)
  deriving Repr

/-- A source file: comment lines, then declarations. -/
structure SourceFile where
  comments : List Text
  declarations : List Declaration
  deriving Repr

end OpenApiClient.TypeScript
