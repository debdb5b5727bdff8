import OpenApiClient.Client.TypeExpression
import OpenApiClient.Proofs.Identifier

/-!
# The Grammar of Type Expressions

How the language reads the text of a type: as tokens on one line, and these by a grammar with three
levels. A name, a record and a type in parentheses are primary; `[]` after a type makes an array of
it; `|` joins arrays and primaries to unions. So `[]` binds more tightly than `|`, and a union is the
element of an array only in parentheses.

## Layers

- **Tokens**: `scan`, words and marks.
- **Grammar**: `Derives`, from the levels of the grammar; `Denotes`, from text.
- **One tree at most**: a reader with a stack, `readOperand` and `readAfter`, finds the tree of every
  derivation (`Derives.read`), so that tokens derive one tree at most (`Derives.unique`).
-/

namespace OpenApiClient.Client

open OpenApiClient.TypeScript (Alphabet)

/-! ## Tokens -/

/-- A token of a type expression. -/
inductive Token where
  | word (text : Text)
  | bar
  | comma
  | openBracket
  | closeBracket
  | openAngle
  | closeAngle
  | openParen
  | closeParen
  deriving DecidableEq, Repr

/-- The characters that are tokens. -/
def markTokens : List (CodePoint × Token) :=
  [(.char '|', .bar), (.char ',', .comma), (.char '[', .openBracket), (.char ']', .closeBracket),
   (.char '<', .openAngle), (.char '>', .closeAngle), (.char '(', .openParen),
   (.char ')', .closeParen)]

/-- The characters between tokens on one line. -/
def tokenBlanks : List CodePoint :=
  [.char ' ', .char '\t']

/-- The token of the word read so far. -/
def wordToken (word : Text) : List Token :=
  if word = [] then [] else [.word word]

/-- The tokens of a text after a word that may go on in it. -/
def scanFrom (alphabet : Alphabet) (word : Text) : Text → Option (List Token)
  | [] => some (wordToken word)
  | point :: rest =>
    if point.is alphabet.continues then scanFrom alphabet (word ++ [point]) rest
    else if point ∈ tokenBlanks then
      (scanFrom alphabet [] rest).map (wordToken word ++ ·)
    else
      (markTokens.lookup point).bind fun mark =>
        (scanFrom alphabet [] rest).map (wordToken word ++ mark :: ·)

/-- The tokens of a text; there are none for text with other characters. -/
def scan (alphabet : Alphabet) (text : Text) : Option (List Token) :=
  scanFrom alphabet [] text

/-! ## Grammar -/

/-- The levels of the grammar, each of them within the next one. -/
inductive Level where
  | primary
  | suffixed
  | union
  deriving DecidableEq, Repr

/-- The tokens of a type at a level of the grammar. -/
inductive Derives (alphabet : Alphabet) : Level → List Token → TypeExpr → Prop
  | name {word : Text} : alphabet.isTypeName word → Derives alphabet .primary [.word word] (.name word)
  | record {ks vs : List Token} {key value : TypeExpr} :
      Derives alphabet .union ks key → Derives alphabet .union vs value →
        Derives alphabet .primary
          (.word "Record" :: .openAngle :: (ks ++ .comma :: (vs ++ [.closeAngle])))
          (.record key value)
  | group {ts : List Token} {type : TypeExpr} :
      Derives alphabet .union ts type →
        Derives alphabet .primary (.openParen :: (ts ++ [.closeParen])) type
  | primary {ts : List Token} {type : TypeExpr} :
      Derives alphabet .primary ts type → Derives alphabet .suffixed ts type
  | array {ts : List Token} {element : TypeExpr} :
      Derives alphabet .suffixed ts element →
        Derives alphabet .suffixed (ts ++ [.openBracket, .closeBracket]) (.array element)
  | operand {ts : List Token} {type : TypeExpr} :
      Derives alphabet .suffixed ts type → Derives alphabet .union ts type
  | union {ls rs : List Token} {left right : TypeExpr} :
      Derives alphabet .suffixed ls left → Derives alphabet .union rs right →
        Derives alphabet .union (ls ++ .bar :: rs) (.union left right)

/-- Whether a text is read as a type. -/
def Denotes (alphabet : Alphabet) (text : Text) (type : TypeExpr) : Prop :=
  ∃ tokens, scan alphabet text = some tokens ∧ Derives alphabet .union tokens type

/-- Every word of a type is the name of one. -/
theorem Derives.isTypeName {alphabet : Alphabet} {level : Level} {tokens : List Token}
    {type : TypeExpr} (h : Derives alphabet level tokens type) :
    ∀ word, .word word ∈ tokens → alphabet.isTypeName word := by
  induction h with
  | name hname => simpa using hname
  | record hkey hvalue ihkey ihvalue =>
    intro word hword
    simp only [List.mem_cons, List.mem_append, Token.word.injEq, reduceCtorEq, List.not_mem_nil,
      false_or, or_false] at hword
    rcases hword with rfl | hword | hword
    · exact alphabet.isTypeName_of_plain (by decide)
    · exact ihkey word hword
    · exact ihvalue word hword
  | group htype ih =>
    intro word hword
    simp only [List.mem_cons, List.mem_append, reduceCtorEq, List.not_mem_nil, false_or,
      or_false] at hword
    exact ih word hword
  | primary htype ih => exact ih
  | array helement ih =>
    intro word hword
    simp only [List.mem_cons, List.mem_append, reduceCtorEq, List.not_mem_nil, or_false] at hword
    exact ih word hword
  | operand htype ih => exact ih
  | union hleft hright ihleft ihright =>
    intro word hword
    simp only [List.mem_cons, List.mem_append, reduceCtorEq, false_or] at hword
    rcases hword with hword | hword
    · exact ihleft word hword
    · exact ihright word hword

/-! ## One tree at most -/

/-- The union of operands, the last of which is given apart. -/
def joinOperands (before : List TypeExpr) (last : TypeExpr) : TypeExpr :=
  before.foldr .union last

/-- What a reader has left open, with the operands of the union in which it was opened. -/
inductive Frame where
  | group (before : List TypeExpr)
  | key (before : List TypeExpr)
  | value (before : List TypeExpr) (key : TypeExpr)
  deriving DecidableEq, Repr

mutual

/-- Reads on where an operand of a union begins, after the operands `before`. -/
def readOperand (stack : List Frame) (before : List TypeExpr) : List Token → Option TypeExpr
  | .word word :: rest => readAfter stack before (.name word) rest
  | .openParen :: rest => readOperand (.group before :: stack) [] rest
  | _ => none

/-- Reads on after the operand `last`, which may become the element of an array. -/
def readAfter (stack : List Frame) (before : List TypeExpr) (last : TypeExpr) :
    List Token → Option TypeExpr
  | [] => if stack = [] then some (joinOperands before last) else none
  | .openBracket :: .closeBracket :: rest => readAfter stack before (.array last) rest
  | .bar :: rest => readOperand stack (before ++ [last]) rest
  | .openAngle :: rest => readOperand (.key before :: stack) [] rest
  | .comma :: rest =>
    match stack with
    | .key outer :: stack => readOperand (.value outer (joinOperands before last) :: stack) [] rest
    | _ => none
  | .closeAngle :: rest =>
    match stack with
    | .value outer key :: stack => readAfter stack outer (.record key (joinOperands before last)) rest
    | _ => none
  | .closeParen :: rest =>
    match stack with
    | .group outer :: stack => readAfter stack outer (joinOperands before last) rest
    | _ => none
  | _ => none

end

/-- What a reader makes of the tokens of a type: an operand, or operands at the level of unions. -/
def ReadsAs (tokens : List Token) (type : TypeExpr) : Level → Prop
  | .union => ∃ operands last, type = joinOperands operands last ∧
      ∀ stack before rest, readOperand stack before (tokens ++ rest) =
        readAfter stack (before ++ operands) last rest
  | _ => ∀ stack before rest, readOperand stack before (tokens ++ rest) =
      readAfter stack before type rest

theorem Derives.readsAs {alphabet : Alphabet} {level : Level} {tokens : List Token}
    {type : TypeExpr} (h : Derives alphabet level tokens type) : ReadsAs tokens type level := by
  induction h with
  | name hname =>
    intro stack before rest
    rw [List.singleton_append, readOperand]
  | record hkey hvalue ihkey ihvalue =>
    obtain ⟨koperands, klast, rfl, hkread⟩ := ihkey
    obtain ⟨voperands, vlast, rfl, hvread⟩ := ihvalue
    intro stack before rest
    -- Key and value are read in frames of their own, which the comma and the angle close.
    simp only [List.cons_append, List.append_assoc, List.nil_append]
    rw [readOperand, readAfter, hkread, List.nil_append, readAfter, hvread, List.nil_append,
      readAfter]
  | group htype ih =>
    obtain ⟨operands, last, rfl, hread⟩ := ih
    intro stack before rest
    simp only [List.cons_append, List.append_assoc, List.nil_append]
    rw [readOperand, hread, List.nil_append, readAfter]
  | primary htype ih => exact ih
  | array helement ih =>
    intro stack before rest
    rw [List.append_assoc, ih]
    simp only [List.cons_append, List.nil_append]
    rw [readAfter]
  | operand htype ih =>
    refine ⟨[], _, rfl, fun stack before rest => ?_⟩
    rw [List.append_nil]
    exact ih stack before rest
  | union hleft hright ihleft ihright =>
    -- The left member joins the operands before the bar; the last operand stays open for brackets.
    obtain ⟨operands, last, rfl, hread⟩ := ihright
    refine ⟨_ :: operands, last, rfl, fun stack before rest => ?_⟩
    rw [List.append_assoc, ihleft, List.cons_append, readAfter, hread, List.append_assoc,
      List.singleton_append]

/-- The reader finds the tree of a derivation. -/
theorem Derives.read {alphabet : Alphabet} {tokens : List Token} {type : TypeExpr}
    (h : Derives alphabet .union tokens type) : readOperand [] [] tokens = some type := by
  obtain ⟨operands, last, rfl, hread⟩ := h.readsAs
  have hall := hread [] [] []
  rw [List.append_nil, List.nil_append] at hall
  rw [hall, readAfter, if_pos rfl]

/-- Tokens derive one tree at most. -/
theorem Derives.unique {alphabet : Alphabet} {tokens : List Token} {type other : TypeExpr}
    (h : Derives alphabet .union tokens type) (hother : Derives alphabet .union tokens other) :
    type = other :=
  Option.some.inj (h.read.symm.trans hother.read)

/-- A text denotes one tree at most. -/
theorem Denotes.unique {alphabet : Alphabet} {text : Text} {type other : TypeExpr}
    (h : Denotes alphabet text type) (hother : Denotes alphabet text other) : type = other := by
  obtain ⟨tokens, hscan, hderives⟩ := h
  obtain ⟨tokens', hscan', hderives'⟩ := hother
  obtain rfl : tokens = tokens' := Option.some.inj (hscan.symm.trans hscan')
  exact hderives.unique hderives'

end OpenApiClient.Client
