import OpenApiClient.Text.Quoted
import OpenApiClient.TypeScript.Layout

/-!
# Drafts

Trees in which every position may hold a node of any family, or something that is no node at all.
A draft is checked in document order and becomes a source file, or the first node in a wrong position
is named.

## Layers

- Drafts and how messages name them
- From drafts to statements, methods and declarations
- Writing drafts
-/

namespace OpenApiClient.TypeScript

/-! ## Drafts -/

/-- A node of any family. -/
inductive Draft where
  | line (text : Text)
  | blank
  | block (opener : Text) (body : List Draft) (closer : Text)
  | interface (name : Text) (members : List Member)
  | class (name : Text) (fields : List ClassField) (methods : List (Method Draft))
  /-- A text that is no node. -/
  | foreign (text : Text)
  deriving Repr, Inhabited

/-- The families of nodes that a position may call for. -/
inductive Family where
  | statement
  | declaration
  deriving DecidableEq, Repr

/-- A node in a position that calls for another family. -/
structure Misplaced where
  expected : Family
  node : Draft
  deriving Repr

/-! ## Naming drafts in messages -/

namespace Draft

/-- A sequence in parentheses; a single element keeps a comma. -/
def tupleText (elements : List String) : String :=
  match elements with
  | [element] => "(" ++ element ++ ",)"
  | _ => "(" ++ ", ".intercalate elements ++ ")"

/-- A sequence of texts. -/
def textsText (texts : List Text) : String :=
  tupleText (texts.map Text.quoted)

/-- A text that may be missing. -/
def optionText (text : Option Text) : String :=
  (text.map Text.quoted).getD "None"

/-- A truth value. -/
def boolText (b : Bool) : String :=
  if b then "True" else "False"

/-- A node with its parts by name. -/
def nodeText (family : String) (parts : List (String × String)) : String :=
  family ++ "(" ++ ", ".intercalate (parts.map fun (name, text) => name ++ "=" ++ text) ++ ")"

/-- An interface member. -/
def memberText (member : Member) : String :=
  nodeText "PropertySignature"
    [("name", Text.quoted member.name), ("annotation", Text.quoted member.annotation),
     ("optional", boolText member.optional)]

/-- A class field. -/
def fieldText (field : ClassField) : String :=
  nodeText "FieldDecl"
    [("name", Text.quoted field.name), ("annotation", Text.quoted field.annotation),
     ("modifiers", textsText field.modifiers)]

/-- A method parameter. -/
def parameterText (parameter : MethodParameter) : String :=
  nodeText "ParameterDecl"
    [("name", Text.quoted parameter.name), ("annotation", Text.quoted parameter.annotation),
     ("default", optionText parameter.default?)]

mutual

/-- A draft as messages name it. -/
def description : Draft → String
  | .line text => nodeText "Statement" [("text", Text.quoted text)]
  | .blank => nodeText "BlankLine" []
  | .block opener body closer =>
    nodeText "BlockStatement"
      [("opener", Text.quoted opener), ("body", tupleText (descriptions body)),
       ("closer", Text.quoted closer)]
  | .interface name members =>
    nodeText "InterfaceDecl"
      [("name", Text.quoted name), ("members", tupleText (members.map memberText))]
  | .class name fields methods =>
    nodeText "ClassDecl"
      [("name", Text.quoted name), ("fields", tupleText (fields.map fieldText)),
       ("methods", tupleText (methodDescriptions methods))]
  | .foreign text => Text.quoted text
termination_by structural node => node

/-- Drafts as messages name them. -/
def descriptions : List Draft → List String
  | [] => []
  | node :: nodes => node.description :: descriptions nodes
termination_by structural nodes => nodes

/-- A method as messages name it. -/
def methodDescription : Method Draft → String
  | ⟨name, parameters, returnType, body, modifiers, typeParameters⟩ =>
    nodeText "MethodDecl"
      [("name", Text.quoted name), ("parameters", tupleText (parameters.map parameterText)),
       ("return_type", optionText returnType), ("body", tupleText (descriptions body)),
       ("modifiers", textsText modifiers), ("type_parameters", textsText typeParameters)]
termination_by structural method => method

/-- Methods as messages name them. -/
def methodDescriptions : List (Method Draft) → List String
  | [] => []
  | method :: methods => methodDescription method :: methodDescriptions methods
termination_by structural methods => methods

end

end Draft

/-- The wording for a misplaced node. -/
def Misplaced.message (misplaced : Misplaced) : String :=
  (match misplaced.expected with
    | .statement => "Unsupported statement node: "
    | .declaration => "Unsupported declaration node: ") ++ misplaced.node.description

/-! ## Checking drafts -/

namespace Draft

mutual

/-- The statement that a draft stands for. -/
def statement : Draft → Except Misplaced Statement
  | .line text => .ok (.line text)
  | .blank => .ok .blank
  | .block opener body closer =>
    match statements body with
    | .ok body => .ok (.block opener body closer)
    | .error misplaced => .error misplaced
  | node => .error ⟨.statement, node⟩
termination_by structural node => node

/-- The statements that drafts stand for. -/
def statements : List Draft → Except Misplaced (List Statement)
  | [] => .ok []
  | node :: nodes =>
    match node.statement with
    | .error misplaced => .error misplaced
    | .ok first =>
      match statements nodes with
      | .error misplaced => .error misplaced
      | .ok rest => .ok (first :: rest)
termination_by structural nodes => nodes

end

/-- The method that a method of drafts stands for. -/
def method (draft : Method Draft) : Except Misplaced (Method Statement) :=
  (statements draft.body).map fun body => { draft with body }

/-- The declaration that a draft stands for. -/
def declaration : Draft → Except Misplaced Declaration
  | .interface name members => .ok (.interface ⟨name, members⟩)
  | .class name fields methods =>
    (methods.mapM method).map fun methods => .class ⟨name, fields, methods⟩
  | node => .error ⟨.declaration, node⟩

/-! ## Writing drafts -/

/-- The lines of a list of drafted statements. -/
def lines (nodes : List Draft) : Except Misplaced (List Text) :=
  (statements nodes).map statementLines

/-- The text of a drafted source file. -/
def sourceText (comments : List Text) (nodes : List Draft) : Except Misplaced Text :=
  (nodes.mapM declaration).map fun declarations => SourceFile.text ⟨comments, declarations⟩

end Draft

end OpenApiClient.TypeScript
