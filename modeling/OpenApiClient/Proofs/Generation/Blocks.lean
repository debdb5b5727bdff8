import OpenApiClient.Proofs.Generation.Delimiting

/-!
# Reading Blocks Back

Interfaces and methods can be read off their lines, as long as names consist of plain characters. A type
may have commas, blanks and brackets in its text, but no colon. So a colon always stands behind a name,
and in a list of parameters the types end where the next name begins.

## Layers

- **Plain text**: names (`IsPlainWord`) and types (`IsTypeText`), and what they are free of.
- **Interfaces**: `Interface.selfDelimiting`.
- **Parameters**: `join_text_inj`.
- **Methods**: what a method shows of its operation (`MethodData`) and `MethodData.selfDelimiting`.
-/

namespace OpenApiClient.TypeScript

/-! ## Plain text -/

/-- Whether a text has no other code points than plain words have. -/
def IsPlainWord (text : Text) : Prop :=
  ∀ point ∈ text, point.is Alphabet.plain.continues

/-- The marks that stand between the words of a type. -/
def typeMarks : Text := " |,[]<>"

/-- Whether a text has no other code points than types with plain names have. -/
def IsTypeText (text : Text) : Prop :=
  ∀ point ∈ text, point.is Alphabet.plain.continues ∨ point ∈ typeMarks

def colon : CodePoint := .char ':'

def closeParenthesis : CodePoint := .char ')'

theorem IsPlainWord.notMem {text : Text} (h : IsPlainWord text) (mark : CodePoint)
    (hmark : ¬ mark.is Alphabet.plain.continues) : mark ∉ text :=
  fun hmem => hmark (h mark hmem)

theorem IsTypeText.notMem {text : Text} (h : IsTypeText text) (mark : CodePoint)
    (hword : ¬ mark.is Alphabet.plain.continues) (hmark : mark ∉ typeMarks) : mark ∉ text :=
  fun hmem => (h mark hmem).elim hword hmark

theorem IsTypeText.colon_notMem {text : Text} (h : IsTypeText text) : colon ∉ text :=
  h.notMem colon (by decide) (by decide)

theorem not_continues_head (mark : CodePoint) (hmark : ¬ mark.is Alphabet.plain.continues)
    (rest : Text) : ∀ first ∈ (mark :: rest).head?, ¬ first.is Alphabet.plain.continues := by
  intro first hfirst
  obtain rfl := Option.some.inj hfirst
  exact hmark

/-- Equal texts that begin with words have the same word there, up to marks that no word has. -/
theorem IsPlainWord.append_inj {word other rest rest' : Text} (hword : IsPlainWord word)
    (hother : IsPlainWord other)
    (hrest : ∀ mark ∈ rest.head?, ¬ mark.is Alphabet.plain.continues)
    (hrest' : ∀ mark ∈ rest'.head?, ¬ mark.is Alphabet.plain.continues)
    (h : word ++ rest = other ++ rest') : word = other ∧ rest = rest' :=
  append_inj_of_head (fun point : CodePoint => point.is Alphabet.plain.continues)
    hword hother hrest hrest' h

/-! ## Interfaces -/

/-- Whether the texts of a member can be told from the marks around them. -/
structure Member.IsPlain (member : Member) : Prop where
  name : IsPlainWord member.name
  type : IsTypeText member.annotation

theorem Member.line_inj {member other : Member} (hmember : member.IsPlain) (hother : other.IsPlain)
    (h : member.line = other.line) : member = other := by
  obtain ⟨name, annotation, optional⟩ := member
  obtain ⟨name', annotation', optional'⟩ := other
  simp only [line, List.append_assoc] at h
  have hhead : ∀ (optional : Bool) (rest : Text), ∀ mark ∈
      (Text.ofString (if optional then "?" else "") ++ ((": " : Text) ++ rest)).head?,
      ¬ mark.is Alphabet.plain.continues := by
    intro optional rest
    cases optional with
    | false => exact not_continues_head colon (by decide) _
    | true => exact not_continues_head (.char '?') (by decide) _
  obtain ⟨rfl, hrest⟩ := hmember.name.append_inj hother.name (hhead optional _) (hhead optional' _)
    (List.append_cancel_left h)
  -- What stands behind the name begins with a question mark only for an optional member.
  have hoptional : optional = optional' := by
    cases optional <;> cases optional'
    · rfl
    · exact absurd (List.cons.inj hrest).1 (by decide)
    · exact absurd (List.cons.inj hrest).1 (by decide)
    · rfl
  subst hoptional
  have hannotation := List.append_cancel_left (List.append_cancel_left hrest)
  rw [List.append_cancel_right hannotation]

/-- Whether the texts of an interface can be told from the marks around them. -/
structure Interface.IsPlain (declaration : Interface) : Prop where
  name : IsPlainWord declaration.name
  members : ∀ member ∈ declaration.members, member.IsPlain

theorem Member.selfDelimiting : SelfDelimiting Member.IsPlain fun member => [member.line] := by
  intro member other rest rest' hmember hother h
  obtain ⟨hline, hrest⟩ := List.cons.inj h
  exact ⟨Member.line_inj hmember hother hline, hrest⟩

/-- A line of a member begins with a blank, so the closing line is none. -/
theorem Member.beginsNone_closingLine (rest : List Text) :
    BeginsNone Member.IsPlain (fun member => [member.line]) (closingLine :: rest) := by
  intro member after _ h
  have hline : member.line = closingLine := (List.cons.inj h).1
  simp only [Member.line, List.append_assoc] at hline
  exact absurd (List.cons.inj hline).1 (by decide)

/-- Interfaces can be read off their lines, one after the other. -/
theorem Interface.selfDelimiting :
    SelfDelimiting Interface.IsPlain fun declaration => declaration.lines ++ [emptyLine] := by
  intro declaration other rest rest' hdeclaration hother h
  obtain ⟨name, members⟩ := declaration
  obtain ⟨name', members'⟩ := other
  simp only [lines, List.append_assoc, List.cons_append, List.nil_append, List.cons.injEq] at h
  obtain ⟨hopening, hlines⟩ := h
  have hname := List.append_cancel_right (List.append_cancel_left hopening)
  -- The members are read up to the closing line; behind it stands an empty line.
  rw [List.map_eq_flatMap, List.map_eq_flatMap] at hlines
  obtain ⟨hmembers, hafter⟩ := Member.selfDelimiting.flatMap_append_inj hdeclaration.members
    hother.members (Member.beginsNone_closingLine _) (Member.beginsNone_closingLine _) hlines
  have hrests := (List.cons.inj (List.cons.inj hafter).2).2
  simp only at hname hmembers
  rw [hname, hmembers]
  exact ⟨rfl, hrests⟩

theorem Interface.IsPlain.lineFeed_notMem {declaration : Interface} (h : declaration.IsPlain) :
    ∀ line ∈ declaration.lines, lineFeed ∉ line := by
  intro line hline
  simp only [Interface.lines, List.cons_append, List.mem_cons, List.mem_append, List.mem_map,
    List.not_mem_nil, or_false] at hline
  rcases hline with rfl | ⟨member, hmember, rfl⟩ | rfl
  · have hname := h.name.notMem lineFeed (by decide)
    have hfixed : lineFeed ∉ ("export interface " : Text) ∧ lineFeed ∉ (" \x7b" : Text) := by decide
    simp [hname, hfixed]
  · have hname := (h.members member hmember).name.notMem lineFeed (by decide)
    have hannotation :=
      (h.members member hmember).type.notMem lineFeed (by decide) (by decide)
    have hfixed : lineFeed ∉ indentation ∧ lineFeed ∉ (": " : Text) ∧ lineFeed ∉ (";" : Text) ∧
        lineFeed ∉ Text.ofString (if member.optional then "?" else "") := by
      cases member.optional <;> decide
    simp [Member.line, hname, hannotation, hfixed]
  · decide

/-! ## Parameters -/

/-- Whether the texts of a parameter can be told from the marks around them. -/
structure MethodParameter.IsPlain (parameter : MethodParameter) : Prop where
  name : IsPlainWord parameter.name
  type : IsTypeText parameter.annotation
  default? : parameter.default? = none

theorem MethodParameter.IsPlain.eq {parameter other : MethodParameter} (h : parameter.IsPlain)
    (hother : other.IsPlain) (hname : parameter.name = other.name)
    (htype : parameter.annotation = other.annotation) : parameter = other := by
  obtain ⟨name, annotation, default?⟩ := parameter
  obtain ⟨name', annotation', default?'⟩ := other
  rw [MethodParameter.mk.injEq]
  exact ⟨hname, htype, h.default?.trans hother.default?.symm⟩

/-- The text of parameters that stand behind others. -/
def furtherText (parameters : List MethodParameter) : Text :=
  parameters.flatMap fun parameter => ", " ++ parameter.text

theorem furtherText_cons {parameter : MethodParameter} (h : parameter.IsPlain)
    (parameters : List MethodParameter) :
    furtherText (parameter :: parameters) =
      ((", " : Text) ++ parameter.name) ++ colon :: ((" " : Text) ++
        ( parameter.annotation ++ furtherText parameters)) := by
  simp only [furtherText, List.flatMap_cons, MethodParameter.text, h.default?, Option.map_none,
    Option.getD_none, List.append_nil, List.append_assoc]
  rfl

theorem separator_append_join {parameters : List MethodParameter} (h : parameters ≠ []) :
    (", " : Text) ++ Text.join ", " (parameters.map MethodParameter.text) =
      furtherText parameters := by
  induction parameters with
  | nil => contradiction
  | cons parameter parameters ih =>
    cases parameters with
    | nil => simp [Text.join, furtherText]
    | cons next parameters =>
      rw [List.map_cons, List.map_cons, Text.join, List.intercalate_cons_cons, ← List.map_cons,
        ← Text.join, List.append_assoc, ih (by simp), ← List.append_assoc]
      rfl

theorem colon_notMem_append {type : Text} {parameter : MethodParameter} (htype : IsTypeText type)
    (hparameter : parameter.IsPlain) : colon ∉ type ++ ((", " : Text) ++ parameter.name) := by
  have hname := hparameter.name.notMem colon (by decide)
  have hseparator : colon ∉ (", " : Text) := by decide
  simp [htype.colon_notMem, hname, hseparator]

/-- A type and the parameters behind it can be read off their text: up to the first colon there are the
rest of the type and the name of the next parameter, with a blank between them. -/
theorem append_furtherText_inj {type type' : Text} {parameters parameters' : List MethodParameter}
    (htype : IsTypeText type) (htype' : IsTypeText type')
    (hparameters : ∀ parameter ∈ parameters, parameter.IsPlain)
    (hparameters' : ∀ parameter ∈ parameters', parameter.IsPlain)
    (h : type ++ furtherText parameters = type' ++ furtherText parameters') :
    type = type' ∧ parameters = parameters' := by
  have hblank : ∀ type : Text, ∀ mark ∈ (type ++ (", " : Text)).getLast?,
      ¬ mark.is Alphabet.plain.continues := by
    intro type mark hmark
    have hseparator : (", " : Text) = [.char ',', .char ' '] := rfl
    rw [hseparator, List.getLast?_append] at hmark
    obtain rfl := Option.some.inj hmark
    decide
  induction parameters generalizing type type' parameters' with
  | nil =>
    cases parameters' with
    | nil => exact ⟨List.append_cancel_right h, rfl⟩
    | cons parameter' parameters' =>
      -- Only a name has a colon behind it.
      have hnothing : type ++ furtherText [] = type := List.append_nil type
      rw [furtherText_cons (hparameters' parameter' List.mem_cons_self), hnothing] at h
      exact absurd (h ▸ htype.colon_notMem) (by simp)
  | cons parameter parameters ih =>
    rw [List.forall_mem_cons] at hparameters
    rw [furtherText_cons hparameters.1, ← List.append_assoc type] at h
    cases parameters' with
    | nil =>
      have hnothing : type' ++ furtherText [] = type' := List.append_nil type'
      rw [hnothing] at h
      exact absurd (h ▸ htype'.colon_notMem) (by simp)
    | cons parameter' parameters' =>
      rw [List.forall_mem_cons] at hparameters'
      rw [furtherText_cons hparameters'.1, ← List.append_assoc type'] at h
      obtain ⟨hfronts, hbacks⟩ := append_inj_of_mark
        (colon_notMem_append htype hparameters.1) (colon_notMem_append htype' hparameters'.1) h
      -- In front of the colon the name is what stands behind the last blank.
      rw [← List.append_assoc type, ← List.append_assoc type'] at hfronts
      obtain ⟨htypes, hnames⟩ := append_inj_of_getLast
        (fun point : CodePoint => point.is Alphabet.plain.continues)
        hparameters.1.name hparameters'.1.name (hblank type) (hblank type') hfronts
      obtain ⟨hannotations, rfl⟩ := ih hparameters.1.type hparameters'.1.type
        hparameters.2 hparameters'.2 (List.append_cancel_left hbacks)
      have hparameter := hparameters.1.eq hparameters'.1 hnames hannotations
      rw [hparameter]
      exact ⟨List.append_cancel_right htypes, rfl⟩

/-- A list of parameters has a colon, if there are any. -/
theorem join_ne_nil {parameter : MethodParameter} (h : parameter.IsPlain)
    (parameters : List MethodParameter) :
    Text.join ", " ((parameter :: parameters).map MethodParameter.text) ≠ [] := by
  intro hnil
  have hfurther := separator_append_join (List.cons_ne_nil parameter parameters)
  rw [hnil, furtherText_cons h] at hfurther
  have hcolon : colon ∉ (", " : Text) ++ [] := by decide
  exact absurd (hfurther ▸ hcolon) (by simp)

/-- The parameters of a method can be read off their list. -/
theorem join_text_inj {parameters others : List MethodParameter}
    (hparameters : ∀ parameter ∈ parameters, parameter.IsPlain)
    (hothers : ∀ parameter ∈ others, parameter.IsPlain)
    (h : Text.join ", " (parameters.map MethodParameter.text) =
      Text.join ", " (others.map MethodParameter.text)) : parameters = others := by
  cases parameters with
  | nil =>
    cases others with
    | nil => rfl
    | cons other others => exact absurd h.symm (join_ne_nil (hothers other List.mem_cons_self) others)
  | cons parameter parameters =>
    cases others with
    | nil => exact absurd h (join_ne_nil (hparameters parameter List.mem_cons_self) parameters)
    | cons other others =>
      have hfurther := congrArg ((", " : Text) ++ ·) h
      simp only [separator_append_join (List.cons_ne_nil _ _)] at hfurther
      have hempty : IsTypeText [] := by simp [IsTypeText]
      exact (append_furtherText_inj hempty hempty hparameters hothers hfurther).2

/-- A mark that is neither in names nor in types, and no colon, is not in a list of parameters. -/
theorem notMem_join {parameters : List MethodParameter}
    (hparameters : ∀ parameter ∈ parameters, parameter.IsPlain) (mark : CodePoint)
    (hword : ¬ mark.is Alphabet.plain.continues) (hmark : mark ∉ typeMarks) (hcolon : mark ≠ colon) :
    mark ∉ Text.join ", " (parameters.map MethodParameter.text) := by
  intro hmem
  cases parameters with
  | nil => exact absurd hmem (List.not_mem_nil)
  | cons first rest =>
    have hmem' := List.mem_append_right (", " : Text) hmem
    rw [separator_append_join (List.cons_ne_nil first rest), furtherText, List.mem_flatMap] at hmem'
    obtain ⟨parameter, hparameter, htext⟩ := hmem'
    have hplain := hparameters parameter hparameter
    have hname := hplain.name.notMem mark hword
    have hannotation := hplain.type.notMem mark hword hmark
    have hmarks : (", " : Text) ++ (": " : Text) ⊆ colon :: typeMarks := by decide
    simp only [MethodParameter.text, hplain.default?, Option.map_none, Option.getD_none,
      List.mem_append, hname, hannotation, List.not_mem_nil, or_false, false_or] at htext
    have hin := List.mem_cons.mp (hmarks (List.mem_append.mpr htext))
    exact hin.elim hcolon hmark

end OpenApiClient.TypeScript

namespace OpenApiClient.Client

open OpenApiClient.TypeScript

/-! ## Methods -/

/-- What the method for an operation shows of it. -/
@[ext] structure MethodData where
  name : Text
  parameters : List MethodParameter
  result : Text
  path : Text
  verb : Text
  deriving DecidableEq, Repr

/-- What the method for an operation shows: its name, its parameters, the types of its result, the
expression for the request path, and the HTTP method in upper case. -/
def methodData (named : NamedOperation) : MethodData :=
  ⟨named.name, methodParameters named.operation, resultTypeText named.operation,
    pathExpression named.path named.operation, Text.upper named.method⟩

namespace MethodData

/-- The line that opens the method. -/
def headerLine (data : MethodData) : Text :=
  "  async " ++ data.name ++ "(" ++ Text.join ", " (data.parameters.map MethodParameter.text) ++
    "): Promise<" ++ data.result ++ "> \x7b"

/-- The line that calls the request helper. -/
def callLine (data : MethodData) : Text :=
  "    return this.request<" ++ data.result ++ ">(" ++ data.path ++ ", \x7b"

/-- The line that names the HTTP method. -/
def verbLine (data : MethodData) : Text :=
  "      method: '" ++ data.verb ++ "',"

/-- The lines of the method in the class, with the empty line that follows it. -/
def lines (data : MethodData) : List Text :=
  [data.headerLine, data.callLine, data.verbLine, "    \x7d);", "  \x7d", emptyLine]

/-- Whether the texts of a method can be told from the marks around them. -/
structure IsPlain (data : MethodData) : Prop where
  name : IsPlainWord data.name
  parameters : ∀ parameter ∈ data.parameters, parameter.IsPlain
  result : IsTypeText data.result
  path : lineFeed ∉ data.path
  verb : lineFeed ∉ data.verb

theorem headerLine_inj {data other : MethodData} (hdata : data.IsPlain) (hother : other.IsPlain)
    (h : data.headerLine = other.headerLine) :
    data.name = other.name ∧ data.parameters = other.parameters ∧ data.result = other.result := by
  have hsplit : ∀ data : MethodData, data.headerLine = ("  async " : Text) ++ (data.name ++
      (("(" : Text) ++ (Text.join ", " (data.parameters.map MethodParameter.text) ++
        closeParenthesis :: (((": Promise<" : Text) ++ data.result) ++ "> \x7b")))) := by
    intro data
    simp only [headerLine, List.append_assoc]
    rfl
  have hopening : ∀ rest : Text, ∀ mark ∈ (("(" : Text) ++ rest).head?,
      ¬ mark.is Alphabet.plain.continues :=
    not_continues_head (.char '(') (by decide)
  have hclosing : ∀ {data : MethodData}, data.IsPlain →
      closeParenthesis ∉ Text.join ", " (data.parameters.map MethodParameter.text) :=
    fun hdata => notMem_join hdata.parameters closeParenthesis (by decide) (by decide) (by decide)
  -- The name ends at the parenthesis that opens, the parameters at the one that closes.
  rw [hsplit data, hsplit other] at h
  obtain ⟨hname, hrest⟩ := hdata.name.append_inj hother.name (hopening _) (hopening _)
    (List.append_cancel_left h)
  obtain ⟨hjoins, hresults⟩ := append_inj_of_mark (hclosing hdata) (hclosing hother)
    (List.append_cancel_left hrest)
  exact ⟨hname, join_text_inj hdata.parameters hother.parameters hjoins,
    List.append_cancel_left (List.append_cancel_right hresults)⟩

/-- Methods can be read off their lines, one after the other. -/
theorem selfDelimiting : SelfDelimiting IsPlain lines := by
  intro data other rest rest' hdata hother h
  simp only [lines, List.cons_append, List.nil_append, List.cons.injEq, true_and] at h
  obtain ⟨hheader, hcall, hverb, hrest⟩ := h
  obtain ⟨hname, hparameters, hresult⟩ := headerLine_inj hdata hother hheader
  -- The result is known from the header, so the rest of the call is the path.
  have hpath : data.path = other.path := by
    rw [callLine, callLine, hresult] at hcall
    exact List.append_cancel_left (List.append_cancel_right hcall)
  have hverbs : data.verb = other.verb :=
    List.append_cancel_left (List.append_cancel_right hverb)
  exact ⟨MethodData.ext hname hparameters hresult hpath hverbs, hrest⟩

theorem IsPlain.lineFeed_notMem {data : MethodData} (h : data.IsPlain) :
    ∀ line ∈ data.lines, lineFeed ∉ line := by
  have hname := h.name.notMem lineFeed (by decide)
  have hparameters := notMem_join h.parameters lineFeed (by decide) (by decide) (by decide)
  have hresult := h.result.notMem lineFeed (by decide) (by decide)
  have hfixed : ∀ text ∈ (["  async ", "(", "): Promise<", "> \x7b", "    return this.request<",
      ">(", ", \x7b", "      method: '", "',"] : List String), lineFeed ∉ (text : Text) := by decide
  simp only [List.forall_mem_cons] at hfixed
  intro line hline
  simp only [lines, List.mem_cons, List.not_mem_nil, or_false] at hline
  rcases hline with rfl | rfl | rfl | rfl | rfl | rfl
  · simp [headerLine, hname, hparameters, hresult, hfixed]
  · simp [callLine, hresult, h.path, hfixed]
  · simp [verbLine, h.verb, hfixed]
  · decide
  · decide
  · decide

end MethodData

theorem memberLines_operationMethod (named : NamedOperation) :
    (operationMethod named).memberLines = (methodData named).lines := by
  simp only [Method.memberLines, Method.lines, operationMethod, Method.header, statementLines,
    Statement.lines, indent, MethodData.lines, MethodData.headerLine, MethodData.callLine,
    MethodData.verbLine, List.append_nil, List.map_cons, List.map_append, List.map_nil,
    List.append_assoc, Option.map_some, Option.getD_some]
  rfl

end OpenApiClient.Client
