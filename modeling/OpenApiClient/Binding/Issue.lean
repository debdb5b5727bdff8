import OpenApiClient.Text.Numeral

/-!
# Binding Issues

What can be wrong with a document that is well-formed but does not have the expected shape, and
results that collect every such issue instead of stopping at the first. One thing stops the reading
at once: a number that stands where text is expected and is too long to be written out.
-/

namespace OpenApiClient

/-! ## Issues -/

/-- One step into a document: a key, or a place in a list. -/
inductive Step where
  | key (name : String)
  | index (n : Int)
  deriving DecidableEq, Repr

/-- What is wrong with a value. -/
inductive IssueKind where
  /-- The value is neither text nor a number. -/
  | notText
  /-- The value is text with impossible characters. -/
  | undecodableText
  /-- The value is of no kind that could denote a truth value. -/
  | notBoolean
  /-- The value denotes no truth value. -/
  | unreadableBoolean
  | notList
  | notMapping
  /-- The value is no mapping, where the mapping of a named part is expected. -/
  | notPart (part : String)
  /-- More schemas are nested than `maxNesting`. -/
  | tooDeep
  /-- A schema contains itself. -/
  | loop
  /-- Reading was given up at a number that is too long to be written. -/
  | unwritable
  deriving DecidableEq, Repr

/-- An issue and the place where it arises. -/
structure Issue where
  place : List Step
  kind : IssueKind
  deriving DecidableEq, Repr

/-- The short code of an issue. -/
def IssueKind.code : IssueKind → String
  | .notText => "string_type"
  | .undecodableText => "string_unicode"
  | .notBoolean => "bool_type"
  | .unreadableBoolean => "bool_parsing"
  | .notList => "tuple_type"
  | .notMapping => "dict_type"
  | .notPart _ => "model_type"
  | .tooDeep => "recursion_depth_exceeded"
  | .loop => "recursion_loop"
  | .unwritable => "value_error"

/-- The wording of an issue. -/
def IssueKind.message : IssueKind → String
  | .notText => "Input should be a valid string"
  | .undecodableText =>
    "Input should be a valid string, unable to parse raw data as a unicode string"
  | .notBoolean => "Input should be a valid boolean"
  | .unreadableBoolean => "Input should be a valid boolean, unable to interpret input"
  | .notList => "Input should be a valid tuple"
  | .notMapping => "Input should be a valid dictionary"
  | .notPart part => "Input should be a valid dictionary or instance of " ++ part
  | .tooDeep => "Recursion error - maximum validation depth exceeded"
  | .loop => "Recursion error - cyclic reference detected"
  | .unwritable => "Value error, " ++ Text.unwritableMessage

/-- The headline for the issues of a part. -/
def issuesHeadline (part : String) (issues : List Issue) : String :=
  toString issues.length ++
    (if issues.length == 1 then " validation error for " else " validation errors for ") ++ part

/-! ## Collecting results -/

/-- A value, or the issues that prevent it; or reading was given up. -/
inductive Checked (α : Type) where
  | valid (value : α)
  | invalid (issues : List Issue)
  /-- A number is too long to be written. -/
  | abandoned
  deriving Repr

namespace Checked

variable {α β : Type}

/-- A result that fails for one reason, at the place itself. -/
def fail (kind : IssueKind) : Checked α :=
  .invalid [⟨[], kind⟩]

/-- Applies a function to a valid value. -/
def map (f : α → β) : Checked α → Checked β
  | .valid value => .valid (f value)
  | .invalid issues => .invalid issues
  | .abandoned => .abandoned

/-- Combines two results; the issues of both are kept, those of the first in front. -/
def ap (f : Checked (α → β)) (x : Checked α) : Checked β :=
  match f, x with
  | .abandoned, _ => .abandoned
  | _, .abandoned => .abandoned
  | .valid f, .valid value => .valid (f value)
  | .valid _, .invalid issues => .invalid issues
  | .invalid issues, .valid _ => .invalid issues
  | .invalid issues, .invalid more => .invalid (issues ++ more)

instance : Applicative Checked where
  pure := .valid
  map := map
  seq f x := ap f (x ())

/-- Goes on with a valid value, and stops otherwise. -/
def andThen (x : Checked α) (next : α → Checked β) : Checked β :=
  match x with
  | .valid value => next value
  | .invalid issues => .invalid issues
  | .abandoned => .abandoned

/-- The same result, seen from one step further out. -/
def under (step : Step) : Checked α → Checked α
  | .valid value => .valid value
  | .invalid issues => .invalid (issues.map fun issue => { issue with place := step :: issue.place })
  | .abandoned => .abandoned

/-- The same result, where giving up counts as an issue like any other. -/
def settled : Checked α → Checked α
  | .abandoned => .fail .unwritable
  | result => result

/-- All values of a list of results, or all issues in order. -/
def collect : List (Checked α) → Checked (List α)
  | [] => .valid []
  | x :: xs => ap (map List.cons x) (collect xs)

/-- All values of a list of results, or the issues of the first that has any. -/
def upToFirst : List (Checked α) → Checked (List α)
  | [] => .valid []
  | x :: xs => x.andThen fun value => (upToFirst xs).map (value :: ·)

end Checked

end OpenApiClient
