import OpenApiClient.TypeScript.Declaration

/-!
# Layout of TypeScript Source

Writing declarations as lines of text. Bodies are indented by two spaces per level, and empty lines
stay empty at every level.
-/

namespace OpenApiClient.TypeScript

/-! ## Lines -/

/-- The indentation of one level. -/
def indentation : Text := "  "

/-- A line without content. -/
def emptyLine : Text := []

/-- The line that ends an interface, a class or a method. -/
def closingLine : Text := "\x7d"

/-- A line one level deeper; an empty line stays empty. -/
def indentLine (line : Text) : Text :=
  if line.isEmpty then line else indentation ++ line

/-- Lines one level deeper. -/
def indent (lines : List Text) : List Text :=
  lines.map indentLine

/-! ## Statements -/

mutual

/-- The lines of a statement. -/
def Statement.lines : Statement → List Text
  | .line text => [text]
  | .blank => [emptyLine]
  | .block opener body closer => opener :: indent (statementLines body) ++ [closer]
termination_by structural statement => statement

/-- The lines of a list of statements. -/
def statementLines : List Statement → List Text
  | [] => []
  | statement :: statements => statement.lines ++ statementLines statements
termination_by structural statements => statements

end

/-! ## Interfaces -/

/-- The line of an interface member; a question mark makes it optional. -/
def Member.line (member : Member) : Text :=
  indentation ++ member.name ++ (if member.optional then "?" else "") ++ ": " ++
    member.annotation ++ ";"

/-- The lines of an interface. -/
def Interface.lines (declaration : Interface) : List Text :=
  ("export interface " ++ declaration.name ++ " \x7b") ::
    declaration.members.map Member.line ++ [closingLine]

/-! ## Classes -/

/-- Modifiers as they stand in front of a name. -/
def modifierPrefix (modifiers : List Text) : Text :=
  modifiers.flatMap fun modifier => modifier ++ " "

/-- The line of a class field. -/
def ClassField.line (field : ClassField) : Text :=
  indentation ++ modifierPrefix field.modifiers ++ field.name ++ ": " ++ field.annotation ++ ";"

/-- A parameter in the parameter list of a method. -/
def MethodParameter.text (parameter : MethodParameter) : Text :=
  parameter.name ++ ": " ++ parameter.annotation ++
    (parameter.default?.map fun (value : Text) => " = " ++ value).getD []

/-- The opening line of a method. -/
def Method.header {σ : Type} (method : Method σ) : Text :=
  let typeParameters : Text :=
    if method.typeParameters.isEmpty then []
    else "<" ++ Text.join ", " method.typeParameters ++ ">"
  modifierPrefix method.modifiers ++ method.name ++ typeParameters ++ "(" ++
    Text.join ", " (method.parameters.map MethodParameter.text) ++ ")" ++
    (method.returnType.map fun (type : Text) => ": " ++ type).getD [] ++ " \x7b"

/-- The lines of a method. -/
def Method.lines (method : Method Statement) : List Text :=
  method.header :: indent (statementLines method.body) ++ [closingLine]

/-- The lines of a method inside a class, with the empty line that follows it. -/
def Method.memberLines (method : Method Statement) : List Text :=
  indent method.lines ++ [emptyLine]

/-- The lines of a class. -/
def ClassDeclaration.lines (declaration : ClassDeclaration) : List Text :=
  ("export class " ++ declaration.name ++ " \x7b") :: declaration.fields.map ClassField.line ++
    [emptyLine] ++ declaration.methods.flatMap Method.memberLines ++ [closingLine]

/-! ## Files -/

/-- The lines of a declaration. -/
def Declaration.lines : Declaration → List Text
  | .interface declaration => declaration.lines
  | .class declaration => declaration.lines

/-- The lines of declarations, with an empty line between any two. -/
def declarationLines : List Declaration → List Text
  | [] => []
  | [declaration] => declaration.lines
  | declaration :: declarations => declaration.lines ++ emptyLine :: declarationLines declarations

/-- The lines of a source file: comments, an empty line, declarations. -/
def SourceFile.lines (file : SourceFile) : List Text :=
  file.comments.map (fun (comment : Text) => "// " ++ comment) ++
    emptyLine :: declarationLines file.declarations

/-- The text of a source file. -/
def SourceFile.text (file : SourceFile) : Text :=
  Text.join "\n" file.lines ++ "\n"

end OpenApiClient.TypeScript
