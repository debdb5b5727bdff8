import OpenApiClient.Client.Generation
import OpenApiClient.Proofs.Path.Literal

/-!
# Source Text in Blocks

The text of a generated source file is a row of blocks: the opening comments, one block for each named
schema, the opening of the class, one block for each operation, and the end of the class. What stands
in a block depends on nothing but its schema or its operation.

## Layers

- **Lines**: a file ends each of its lines with a line feed (`SourceFile.text_eq`).
- **Blocks**: `clientFile_text`.
-/

namespace OpenApiClient.TypeScript

/-! ## Lines -/

/-- The text of lines, each of them ended by a line feed. -/
def linesText (lines : List Text) : Text :=
  lines.flatMap fun line => line ++ [lineFeed]

theorem linesText_append (lines others : List Text) :
    linesText (lines ++ others) = linesText lines ++ linesText others :=
  List.flatMap_append

theorem linesText_flatMap {α : Type} (items : List α) (write : α → List Text) :
    linesText (items.flatMap write) = items.flatMap fun item => linesText (write item) :=
  List.flatMap_assoc

theorem join_append_lineFeed {lines : List Text} (h : lines ≠ []) :
    Text.join "\n" lines ++ "\n" = linesText lines := by
  induction lines with
  | nil => contradiction
  | cons line lines ih =>
    cases lines with
    | nil => simp only [Text.join, List.intercalate_singleton, linesText, List.flatMap_cons,
        List.flatMap_nil, List.append_nil]; rfl
    | cons next lines =>
      have hrest := ih (by simp)
      rw [linesText, List.flatMap_cons, ← linesText, ← hrest, Text.join, Text.join,
        List.intercalate_cons_cons, List.append_assoc, List.append_assoc, List.append_assoc]
      rfl

theorem SourceFile.text_eq (file : SourceFile) : file.text = linesText file.lines :=
  join_append_lineFeed (by simp [SourceFile.lines])

theorem declarationLines_append_singleton (declarations : List Declaration) (last : Declaration) :
    declarationLines (declarations ++ [last]) =
      (declarations.flatMap fun declaration => declaration.lines ++ [emptyLine]) ++ last.lines := by
  induction declarations with
  | nil => rfl
  | cons declaration declarations ih =>
    -- Another declaration follows, so the empty line stands between them.
    have hstep : declarationLines (declaration :: (declarations ++ [last])) =
        declaration.lines ++ emptyLine :: declarationLines (declarations ++ [last]) := by
      cases declarations <;> rfl
    rw [List.cons_append, hstep, ih, List.flatMap_cons]
    simp only [List.append_assoc, List.cons_append, List.nil_append]

/-- The text of an interface with the empty line that follows it. -/
def interfaceText (declaration : Interface) : Text :=
  linesText (declaration.lines ++ [emptyLine])

end OpenApiClient.TypeScript

namespace OpenApiClient.Client

open OpenApiClient.TypeScript

/-! ## Blocks -/

/-- The text of an operation's method with the empty line that follows it. -/
def methodText (named : NamedOperation) : Text :=
  linesText (operationMethod named).memberLines

/-- The text in front of all interfaces. -/
def fileOpening : Text :=
  linesText (headerComments.map (fun (comment : Text) => "// " ++ comment) ++ [emptyLine])

/-- The lines of the class in front of the methods for operations. -/
def classOpeningLines (name : Text) : List Text :=
  ("export class " ++ name ++ " \x7b") :: clientFields.map ClassField.line ++ [emptyLine] ++
    constructorMethod.memberLines ++ requestMethod.memberLines

/-- The text between the interfaces of the schemas and the methods for operations. -/
def classOpening (name : Text) : Text :=
  interfaceText optionsInterface ++ linesText (classOpeningLines name)

/-- The text after all methods. -/
def fileClosing : Text :=
  linesText [closingLine]

theorem clientClass_lines (name : Text) (operations : List NamedOperation) :
    (clientClass name operations).lines =
      classOpeningLines name ++
        (operations.flatMap fun named => (operationMethod named).memberLines) ++ [closingLine] := by
  simp only [clientClass, ClassDeclaration.lines, classOpeningLines, List.flatMap_cons,
    List.flatMap_map, List.append_assoc, List.cons_append, List.nil_append]

theorem clientFile_lines (name : Text) (components : Components) (operations : List NamedOperation) :
    (clientFile name components operations).lines =
      (headerComments.map (fun (comment : Text) => "// " ++ comment) ++ [emptyLine]) ++
        ((componentInterfaces components).flatMap fun declaration =>
          declaration.lines ++ [emptyLine]) ++
        ((optionsInterface.lines ++ [emptyLine]) ++ classOpeningLines name) ++
        (operations.flatMap fun named => (operationMethod named).memberLines) ++ [closingLine] := by
  have hdeclarations : (clientFile name components operations).declarations =
      ((componentInterfaces components).map .interface ++ [.interface optionsInterface]) ++
        [.class (clientClass name operations)] := by
    simp only [clientFile, List.append_assoc, List.cons_append, List.nil_append]
  rw [SourceFile.lines, hdeclarations, declarationLines_append_singleton, List.flatMap_append,
    List.flatMap_map, Declaration.lines, clientClass_lines]
  simp only [clientFile, Declaration.lines, List.flatMap_cons, List.flatMap_nil, List.append_assoc,
    List.cons_append, List.nil_append]

/-- The text of a client's file, block by block. -/
theorem clientFile_text (name : Text) (components : Components) (operations : List NamedOperation) :
    (clientFile name components operations).text =
      fileOpening ++ (componentInterfaces components).flatMap interfaceText ++ classOpening name ++
        operations.flatMap methodText ++ fileClosing := by
  rw [SourceFile.text_eq, clientFile_lines, linesText_append, linesText_append, linesText_append,
    linesText_append, linesText_flatMap, linesText_flatMap, linesText_append _ (classOpeningLines name)]
  rfl

end OpenApiClient.Client
