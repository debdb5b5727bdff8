import Mathlib.Data.List.Forall2
import Mathlib.Logic.Function.Iterate
import OpenApiClient.TypeScript.Layout

/-!
# Depth of Lines

A body is laid out by indenting the lines of what it holds, once for every block around it. One walk over
the texts of a method, in the order in which they stand, gives the same lines: it counts how many blocks are
open and puts two blanks for each of them in front of a text, unless there is none.

## Layers

- **Lines at a depth**: `lineAt`, and indenting is going one level deeper (`indent_iterate`).
- **Walks**: `marks`, the texts of statements with the blocks that they open and close, and `walk`, which
  counts them (`walk_marks_append`).
- **Main statement**: `lines_eq_walk`, for statements, methods and classes.
-/

namespace OpenApiClient.TypeScript

/-! ## Lines at a depth -/

/-- A text at a depth: two blanks for each level stand in front of it, but an empty line stays empty. -/
def lineAt (depth : Nat) (text : Text) : Text :=
  if text.isEmpty then emptyLine else List.replicate (2 * depth) (CodePoint.char ' ') ++ text

@[simp] theorem lineAt_zero (text : Text) : lineAt 0 text = text := by
  cases text with
  | nil => rfl
  | cons first rest => rfl

theorem lineAt_of_ne_nil {text : Text} (h : text ≠ []) (depth : Nat) :
    lineAt depth text = List.replicate (2 * depth) (CodePoint.char ' ') ++ text := by
  rw [lineAt, if_neg (by simpa using h)]

theorem lineAt_eq_empty_iff {depth : Nat} {text : Text} :
    lineAt depth text = emptyLine ↔ text = emptyLine := by
  unfold lineAt emptyLine
  split <;> simp_all

/-- What is indented and then put at a depth stands one level deeper. -/
@[simp] theorem lineAt_indentLine (depth : Nat) (text : Text) :
    lineAt depth (indentLine text) = lineAt (depth + 1) text := by
  cases text with
  | nil => rfl
  | cons first rest =>
    -- The blanks of the indentation join those of the depth.
    have hindent : indentLine (first :: rest) = indentation ++ first :: rest := rfl
    have htwo : indentation = List.replicate 2 (CodePoint.char ' ') := rfl
    rw [hindent, lineAt_of_ne_nil (by simp [htwo]), lineAt_of_ne_nil (by simp), htwo,
      ← List.append_assoc, List.replicate_append_replicate, Nat.mul_succ]

theorem map_lineAt_indent (depth : Nat) (lines : List Text) :
    (indent lines).map (lineAt depth) = lines.map (lineAt (depth + 1)) := by
  rw [indent, List.map_map]
  exact List.map_congr_left fun line _ => lineAt_indentLine depth line

theorem map_lineAt_zero (lines : List Text) : lines.map (lineAt 0) = lines := by
  rw [List.map_congr_left fun line _ => lineAt_zero line, List.map_id']

theorem indent_eq_map (lines : List Text) : indent lines = lines.map (lineAt 1) := by
  rw [← map_lineAt_indent, map_lineAt_zero]

/-- Indenting several times is one step down by as many levels. -/
theorem indent_iterate (depth : Nat) (lines : List Text) :
    indent^[depth] lines = lines.map (lineAt depth) := by
  induction depth generalizing lines with
  | zero => rw [map_lineAt_zero, Function.iterate_zero, id]
  | succ depth ih => rw [Function.iterate_succ_apply, ih, map_lineAt_indent]

/-! ## Walks -/

/-- A text on a walk: a line, or the line that opens or closes a block. -/
inductive Mark where
  | line (text : Text)
  | opening (text : Text)
  | closing (text : Text)
  deriving DecidableEq, Repr

mutual

/-- The texts of a statement, in the order in which they stand. -/
def Statement.marks : Statement → List Mark
  | .line text => [.line text]
  | .blank => [.line emptyLine]
  | .block opener body closer => .opening opener :: statementMarks body ++ [.closing closer]
termination_by structural statement => statement

/-- The texts of statements, in the order in which they stand. -/
def statementMarks : List Statement → List Mark
  | [] => []
  | statement :: statements => statement.marks ++ statementMarks statements
termination_by structural statements => statements

end

/-- The lines that a walk gives that starts at a depth: each text at the depth that is reached, which grows
behind the opening of a block and shrinks in front of its closing. -/
def walk : (depth : Nat) → List Mark → List Text
  | _, [] => []
  | depth, .line text :: marks => lineAt depth text :: walk depth marks
  | depth, .opening text :: marks => lineAt depth text :: walk (depth + 1) marks
  | depth, .closing text :: marks => lineAt (depth - 1) text :: walk (depth - 1) marks

mutual

/-- A walk over a statement gives its lines at the depth where it starts, and is back there after that. -/
theorem Statement.walk_marks_append (depth : Nat) (rest : List Mark) : (statement : Statement) →
    walk depth (statement.marks ++ rest) =
      statement.lines.map (lineAt depth) ++ walk depth rest
  | .line text => rfl
  | .blank => rfl
  | .block opener body closer => by
    -- The body ends one level down, and the closing leads back up.
    have hbody := walk_statementMarks_append (depth + 1) (.closing closer :: rest) body
    simp only [Statement.marks, Statement.lines, List.cons_append, List.append_assoc, List.nil_append,
      walk, hbody, Nat.add_sub_cancel, List.map_cons, List.map_append, List.map_nil, map_lineAt_indent]

/-- The same for statements in a row. -/
theorem walk_statementMarks_append (depth : Nat) (rest : List Mark) : (statements : List Statement) →
    walk depth (statementMarks statements ++ rest) =
      (statementLines statements).map (lineAt depth) ++ walk depth rest
  | [] => rfl
  | statement :: statements => by
    rw [statementMarks, statementLines, List.append_assoc,
      Statement.walk_marks_append depth _ statement, walk_statementMarks_append depth rest statements,
      List.map_append, List.append_assoc]

end

theorem walk_statementMarks (depth : Nat) (statements : List Statement) :
    walk depth (statementMarks statements) = (statementLines statements).map (lineAt depth) := by
  simpa [walk] using walk_statementMarks_append depth [] statements

/-! ## Methods -/

/-- The texts of a method: its header opens a block around the body. -/
def Method.marks (method : Method Statement) : List Mark :=
  .opening method.header :: statementMarks method.body ++ [.closing closingLine]

/-- A walk over a method that starts at a depth has its header there, and its body one level deeper. -/
theorem Method.walk_marks (depth : Nat) (method : Method Statement) :
    walk depth method.marks =
      lineAt depth method.header :: walk (depth + 1) (statementMarks method.body) ++
        [lineAt depth closingLine] := by
  simp only [Method.marks, walk_statementMarks, List.cons_append, walk, walk_statementMarks_append,
    Nat.add_sub_cancel]

theorem Method.walk_marks_eq (depth : Nat) (method : Method Statement) :
    walk depth method.marks = method.lines.map (lineAt depth) := by
  simp only [Method.walk_marks, walk_statementMarks, Method.lines, List.map_cons, List.map_append,
    List.map_nil, map_lineAt_indent, List.cons_append]

/-! ## Main statement -/

/-- **One walk gives every line.** The lines of statements are those of a walk from depth zero. In a class,
the lines of each method are those of a walk from depth one, with the body at depth two. And however often
lines are indented, none is added or lost, and the empty ones are those that were empty before. -/
theorem lines_eq_walk :
    (∀ statements, statementLines statements = walk 0 (statementMarks statements)) ∧
    (∀ declaration : ClassDeclaration,
      declaration.lines =
        ("export class " ++ declaration.name ++ " \x7b") ::
          declaration.fields.map ClassField.line ++ [emptyLine] ++
          (declaration.methods.flatMap fun method => walk 1 method.marks ++ [emptyLine]) ++
          [closingLine]) ∧
    (∀ method : Method Statement,
      walk 1 method.marks =
        lineAt 1 method.header :: walk 2 (statementMarks method.body) ++ [lineAt 1 closingLine]) ∧
    ∀ depth (lines : List Text),
      List.Forall₂ (fun line indented => indented = emptyLine ↔ line = emptyLine) lines
        (indent^[depth] lines) := by
  refine ⟨fun statements => ?_, fun declaration => ?_, Method.walk_marks 1, fun depth lines => ?_⟩
  · rw [walk_statementMarks, map_lineAt_zero]
  · have hmethod : ∀ method : Method Statement,
        method.memberLines = walk 1 method.marks ++ [emptyLine] := fun method => by
      rw [Method.memberLines, indent_eq_map, Method.walk_marks_eq]
    rw [ClassDeclaration.lines, List.flatMap_congr fun method _ => hmethod method]
  · rw [indent_iterate, List.forall₂_map_right_iff]
    exact List.forall₂_same.mpr fun line _ => lineAt_eq_empty_iff

end OpenApiClient.TypeScript
