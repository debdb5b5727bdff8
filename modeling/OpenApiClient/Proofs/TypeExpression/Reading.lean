import OpenApiClient.Proofs.TypeExpression.Grammar

/-!
# Reading the Text of a Type

The text of a type is written without parentheses, and read by a grammar in which `[]` binds more
tightly than `|`. It is always read as some type, the *regrouped* one, in which the members of a
union that stood within an array have come out of it; only the last of them is then an array. The
type itself is read exactly when there was no such union.

## Layers

- **Scanning**: `scan_text`, the text of a type gives its tokens.
- **Regrouping**: `regroup`, and the derivation of it (`denotes_text_regroup`).
- **Grouped types**: `IsGrouped`, the types that regrouping keeps.
- **Main statement**: `denotes_text_iff`.
-/

namespace OpenApiClient.Client

open OpenApiClient.TypeScript (Alphabet)

namespace TypeExpr

/-! ## Tokens of a type -/

/-- The names in a type, without the name that a record adds. -/
def names : TypeExpr → List Text
  | .name n => [n]
  | .record key value => key.names ++ value.names
  | .array element => element.names
  | .union left right => left.names ++ right.names

/-- The tokens of the text of a type. -/
def tokens : TypeExpr → List Token
  | .name n => [.word n]
  | .record key value =>
    .word "Record" :: .openAngle :: (key.tokens ++ .comma :: (value.tokens ++ [.closeAngle]))
  | .array element => element.tokens ++ [.openBracket, .closeBracket]
  | .union left right => left.tokens ++ .bar :: right.tokens

theorem word_mem_tokens {type : TypeExpr} {name : Text} (h : name ∈ type.names) :
    .word name ∈ type.tokens := by
  induction type with
  | name own => simpa [names, tokens] using h
  | record key value ihkey ihvalue =>
    rcases List.mem_append.mp h with h | h
    · simp [tokens, ihkey h]
    · simp [tokens, ihvalue h]
  | array element ih => exact List.mem_append_left _ (ih h)
  | union left right ihleft ihright =>
    rcases List.mem_append.mp h with h | h
    · simp [tokens, ihleft h]
    · simp [tokens, ihright h]

end TypeExpr

open TypeExpr

/-! ## Scanning -/

/-- Whether a word that stands before a text ends there. -/
def EndsWord (alphabet : Alphabet) (rest : Text) : Prop :=
  ∀ point ∈ rest.head?, ¬ point.is alphabet.continues

/-- The marks between words are in no word, and are no blanks. -/
theorem mark_spec (alphabet : Alphabet) {mark : CodePoint} {token : Token}
    (h : markTokens.lookup mark = some token) :
    ¬ mark.is alphabet.continues ∧ mark ∉ tokenBlanks := by
  have htable : ∀ entry ∈ markTokens, entry.1 ∉ tokenBlanks ∧ entry.1.is fun c =>
      decide (c.toNat < 0x80) && !Alphabet.plain.continues c := by decide
  obtain ⟨before, after, hsplit, -⟩ := List.lookup_eq_some_iff.mp h
  obtain ⟨hblank, hmark⟩ := htable (mark, token) (by simp [hsplit])
  refine ⟨?_, hblank⟩
  cases mark with
  | surrogate offset => exact Bool.false_ne_true
  | char c =>
    simp only [CodePoint.is, Bool.and_eq_true, decide_eq_true_eq, Bool.not_eq_true'] at hmark
    exact alphabet.not_continues hmark.1 (by simp [hmark.2])

theorem endsWord_mark {alphabet : Alphabet} {mark : CodePoint} {token : Token}
    (h : markTokens.lookup mark = some token) (rest : Text) : EndsWord alphabet (mark :: rest) := by
  intro point hpoint
  obtain rfl : mark = point := Option.some.inj hpoint
  exact (mark_spec alphabet h).1

theorem endsWord_blank {alphabet : Alphabet} (rest : Text) :
    EndsWord alphabet (.char ' ' :: rest) := by
  intro point hpoint
  obtain rfl : CodePoint.char ' ' = point := Option.some.inj hpoint
  exact alphabet.not_continues (by decide) (by decide)

theorem scanFrom_append {alphabet : Alphabet} {word : Text}
    (hword : ∀ point ∈ word, point.is alphabet.continues) (before rest : Text) :
    scanFrom alphabet before (word ++ rest) = scanFrom alphabet (before ++ word) rest := by
  induction word generalizing before with
  | nil => simp
  | cons point word ih =>
    rw [List.forall_mem_cons] at hword
    rw [List.cons_append, scanFrom, if_pos hword.1, ih hword.2, List.append_assoc,
      List.singleton_append]

/-- A word that ends is a token of its own. -/
theorem scanFrom_of_endsWord {alphabet : Alphabet} {rest : Text} (word : Text)
    (hends : EndsWord alphabet rest) :
    scanFrom alphabet word rest = (scanFrom alphabet [] rest).map (wordToken word ++ ·) := by
  cases rest with
  | nil => simp [scanFrom, wordToken]
  | cons point rest =>
    have hpoint := hends point rfl
    rw [scanFrom, scanFrom, if_neg hpoint, if_neg hpoint]
    split
    · simp [wordToken]
    · cases markTokens.lookup point with
      | none => rfl
      | some mark => simp [Function.comp_def, wordToken]

theorem scanFrom_word {alphabet : Alphabet} {word rest : Text} (hword : alphabet.isWord word)
    (hends : EndsWord alphabet rest) :
    scanFrom alphabet [] (word ++ rest) = (scanFrom alphabet [] rest).map (.word word :: ·) := by
  have hne : word ≠ [] := by
    rintro rfl
    contradiction
  rw [scanFrom_append (Alphabet.continues_of_isWord hword), List.nil_append,
    scanFrom_of_endsWord word hends, wordToken, if_neg hne]
  rfl

theorem scanFrom_mark {alphabet : Alphabet} {mark : CodePoint} {token : Token}
    (h : markTokens.lookup mark = some token) (rest : Text) :
    scanFrom alphabet [] (mark :: rest) = (scanFrom alphabet [] rest).map (token :: ·) := by
  obtain ⟨hcontinues, hblank⟩ := mark_spec alphabet h
  rw [scanFrom, if_neg hcontinues, if_neg hblank, h]
  rfl

theorem scanFrom_blank {alphabet : Alphabet} (rest : Text) :
    scanFrom alphabet [] (.char ' ' :: rest) = scanFrom alphabet [] rest := by
  rw [scanFrom, if_neg (alphabet.not_continues (by decide) (by decide)), if_pos (by decide)]
  simp [wordToken]

/-- The text of a type gives its tokens, whatever follows. -/
theorem scanFrom_text {alphabet : Alphabet} {type : TypeExpr}
    (hnames : ∀ name ∈ type.names, alphabet.isWord name) {rest : Text}
    (hends : EndsWord alphabet rest) :
    scanFrom alphabet [] (type.text ++ rest) =
      (scanFrom alphabet [] rest).map (type.tokens ++ ·) := by
  induction type generalizing rest with
  | name name => exact scanFrom_word (hnames name (List.mem_singleton.mpr rfl)) hends
  | record key value ihkey ihvalue =>
    simp only [names, List.forall_mem_append] at hnames
    have hshape : (record key value).text ++ rest =
        ("Record" : Text) ++ .char '<' :: (key.text ++ .char ',' :: .char ' ' ::
          (value.text ++ .char '>' :: rest)) := by
      simp [text, Text.ofString, Text.ofChars]
    have hopen : markTokens.lookup (.char '<') = some .openAngle := rfl
    have hcomma : markTokens.lookup (.char ',') = some .comma := rfl
    have hclose : markTokens.lookup (.char '>') = some .closeAngle := rfl
    rw [hshape, scanFrom_word (alphabet.isWord_of_plain (by decide)) (endsWord_mark hopen _),
      scanFrom_mark hopen, ihkey hnames.1 (endsWord_mark hcomma _), scanFrom_mark hcomma,
      scanFrom_blank, ihvalue hnames.2 (endsWord_mark hclose _), scanFrom_mark hclose]
    simp [Function.comp_def, tokens]
  | array element ih =>
    have hshape : (array element).text ++ rest =
        element.text ++ .char '[' :: .char ']' :: rest := by
      simp [text, Text.ofString, Text.ofChars]
    have hopen : markTokens.lookup (.char '[') = some .openBracket := rfl
    have hclose : markTokens.lookup (.char ']') = some .closeBracket := rfl
    rw [hshape, ih hnames (endsWord_mark hopen _), scanFrom_mark hopen, scanFrom_mark hclose]
    simp [Function.comp_def, tokens]
  | union left right ihleft ihright =>
    simp only [names, List.forall_mem_append] at hnames
    have hshape : (union left right).text ++ rest =
        left.text ++ .char ' ' :: .char '|' :: .char ' ' :: (right.text ++ rest) := by
      simp [text, Text.ofString, Text.ofChars]
    have hbar : markTokens.lookup (.char '|') = some .bar := rfl
    rw [hshape, ihleft hnames.1 (endsWord_blank _), scanFrom_blank, scanFrom_mark hbar,
      scanFrom_blank, ihright hnames.2 hends]
    simp [Function.comp_def, tokens]

theorem scan_text {alphabet : Alphabet} {type : TypeExpr}
    (hnames : ∀ name ∈ type.names, alphabet.isWord name) :
    scan alphabet type.text = some type.tokens := by
  have hends : EndsWord alphabet [] := by
    intro point hpoint
    contradiction
  have hscan := scanFrom_text hnames hends
  rw [List.append_nil] at hscan
  rw [scan, hscan]
  simp [scanFrom, wordToken]

/-! ## Regrouping -/

namespace TypeExpr

/-- The operands that the text of a type consists of, the last one apart: what follows a union in
parentheses follows its last operand when there are none. -/
def operands : TypeExpr → List TypeExpr × TypeExpr
  | .name n => ([], .name n)
  | .record key value =>
    ([], .record (joinOperands key.operands.1 key.operands.2)
      (joinOperands value.operands.1 value.operands.2))
  | .array element => (element.operands.1, .array element.operands.2)
  | .union left right =>
    (left.operands.1 ++ left.operands.2 :: right.operands.1, right.operands.2)

/-- The type that is read in the text of a type. -/
def regroup (type : TypeExpr) : TypeExpr :=
  joinOperands type.operands.1 type.operands.2

end TypeExpr

/-- The tokens of operands with bars between them, the last one apart. -/
inductive Operands (alphabet : Alphabet) : List Token → List TypeExpr → TypeExpr → Prop
  | last {ts : List Token} {type : TypeExpr} :
      Derives alphabet .suffixed ts type → Operands alphabet ts [] type
  | before {ls rs : List Token} {left last : TypeExpr} {before : List TypeExpr} :
      Derives alphabet .suffixed ls left → Operands alphabet rs before last →
        Operands alphabet (ls ++ .bar :: rs) (left :: before) last

namespace Operands

variable {alphabet : Alphabet} {ts rs : List Token} {before others : List TypeExpr}
  {last final : TypeExpr}

theorem derives (h : Operands alphabet ts before last) :
    Derives alphabet .union ts (joinOperands before last) := by
  induction h with
  | last htype => exact .operand htype
  | before hleft hrest ih => exact .union hleft ih

/-- Brackets after operands belong to the last one. -/
theorem array (h : Operands alphabet ts before last) :
    Operands alphabet (ts ++ [.openBracket, .closeBracket]) before (.array last) := by
  induction h with
  | last htype => exact .last (.array htype)
  | before hleft hrest ih =>
    rw [List.append_assoc, List.cons_append]
    exact .before hleft ih

theorem append (h : Operands alphabet ts before last) (hothers : Operands alphabet rs others final) :
    Operands alphabet (ts ++ .bar :: rs) (before ++ last :: others) final := by
  induction h with
  | last htype => exact .before htype hothers
  | before hleft hrest ih =>
    rw [List.append_assoc, List.cons_append]
    exact .before hleft ih

end Operands

theorem operands_tokens {alphabet : Alphabet} {type : TypeExpr}
    (hnames : ∀ name ∈ type.names, alphabet.isTypeName name) :
    Operands alphabet type.tokens type.operands.1 type.operands.2 := by
  induction type with
  | name name => exact .last (.primary (.name (hnames name (by simp [names]))))
  | record key value ihkey ihvalue =>
    simp only [names, List.forall_mem_append] at hnames
    exact .last (.primary (.record (ihkey hnames.1).derives (ihvalue hnames.2).derives))
  | array element ih => exact (ih hnames).array
  | union left right ihleft ihright =>
    simp only [names, List.forall_mem_append] at hnames
    exact (ihleft hnames.1).append (ihright hnames.2)

/-- The text of a type is read as the regrouped type. -/
theorem denotes_text_regroup {alphabet : Alphabet} {type : TypeExpr}
    (hnames : ∀ name ∈ type.names, alphabet.isTypeName name) :
    Denotes alphabet type.text type.regroup :=
  ⟨type.tokens, scan_text fun name hname => Alphabet.isWord_of_isTypeName (hnames name hname),
    (operands_tokens hnames).derives⟩

/-! ## Grouped types -/

namespace TypeExpr

def IsUnion : TypeExpr → Prop
  | .union _ _ => True
  | _ => False

/-- Whether a type needs no parentheses: no union is the element of an array, or the left member of a
union. -/
def IsGrouped : TypeExpr → Prop
  | .name _ => True
  | .record key value => key.IsGrouped ∧ value.IsGrouped
  | .array element => ¬ element.IsUnion ∧ element.IsGrouped
  | .union left right => (¬ left.IsUnion ∧ left.IsGrouped) ∧ right.IsGrouped

/-- What stands for itself as an operand of a union. -/
def IsOperand (type : TypeExpr) : Prop :=
  ¬ type.IsUnion ∧ type.IsGrouped

theorem isGrouped_joinOperands {before : List TypeExpr} {last : TypeExpr}
    (hbefore : ∀ type ∈ before, type.IsOperand) (hlast : last.IsOperand) :
    (joinOperands before last).IsGrouped := by
  induction before with
  | nil => exact hlast.2
  | cons type before ih =>
    rw [List.forall_mem_cons] at hbefore
    exact ⟨hbefore.1, ih hbefore.2⟩

theorem isOperand_operands (type : TypeExpr) :
    (∀ operand ∈ type.operands.1, operand.IsOperand) ∧ type.operands.2.IsOperand := by
  induction type with
  | name name => exact ⟨by simp [operands], id, trivial⟩
  | record key value ihkey ihvalue =>
    exact ⟨by simp [operands], id, isGrouped_joinOperands ihkey.1 ihkey.2,
      isGrouped_joinOperands ihvalue.1 ihvalue.2⟩
  | array element ih => exact ⟨ih.1, id, ih.2⟩
  | union left right ihleft ihright =>
    refine ⟨?_, ihright.2⟩
    simp only [operands, List.forall_mem_append, List.forall_mem_cons]
    exact ⟨ihleft.1, ihleft.2, ihright.1⟩

/-- What is read is always grouped. -/
theorem isGrouped_regroup (type : TypeExpr) : type.regroup.IsGrouped :=
  isGrouped_joinOperands (isOperand_operands type).1 (isOperand_operands type).2

/-- Grouped types are read as they are; what is no union is one operand. -/
theorem operands_of_isGrouped {type : TypeExpr} (h : type.IsGrouped) :
    type.regroup = type ∧ (¬ type.IsUnion → type.operands = ([], type)) := by
  induction type with
  | name name => exact ⟨rfl, fun _ => rfl⟩
  | record key value ihkey ihvalue =>
    have hkey : joinOperands key.operands.1 key.operands.2 = key := (ihkey h.1).1
    have hvalue : joinOperands value.operands.1 value.operands.2 = value := (ihvalue h.2).1
    have hrecord : (record key value).operands = ([], .record key value) := by
      rw [operands, hkey, hvalue]
    exact ⟨by rw [regroup, hrecord]; rfl, fun _ => hrecord⟩
  | array element ih =>
    have harray : (array element).operands = ([], .array element) := by
      rw [operands, (ih h.2).2 h.1]
    exact ⟨by rw [regroup, harray]; rfl, fun _ => harray⟩
  | union left right ihleft ihright =>
    -- The left member is one operand, and the operands of the right one follow it.
    refine ⟨?_, fun hunion => absurd trivial hunion⟩
    have hright := (ihright h.2).1
    rw [regroup, operands, (ihleft h.1.2).2 h.1.1]
    rw [regroup] at hright
    exact congrArg (TypeExpr.union left) hright

/-- Regrouping keeps the grouped types, and no others. -/
theorem regroup_eq_self_iff (type : TypeExpr) : type.regroup = type ↔ type.IsGrouped := by
  constructor
  · intro h
    rw [← h]
    exact isGrouped_regroup type
  · intro h
    exact (operands_of_isGrouped h).1

end TypeExpr

/-- **Reading a type back.** When the names in a type are words, its text is read as the type, and as
no other, exactly when the names are those of types and no union stands where it would need
parentheses. -/
theorem denotes_text_iff {alphabet : Alphabet} {type : TypeExpr}
    (hwords : ∀ name ∈ type.names, alphabet.isWord name) :
    (∀ other, Denotes alphabet type.text other ↔ other = type) ↔
      type.IsGrouped ∧ ∀ name ∈ type.names, alphabet.isTypeName name := by
  constructor
  · intro h
    -- The derivation of the type itself shows its names to be those of types.
    have hself := (h type).mpr rfl
    have hnames : ∀ name ∈ type.names, alphabet.isTypeName name := by
      obtain ⟨tokens, hscan, hderives⟩ := hself
      obtain rfl : type.tokens = tokens := Option.some.inj ((scan_text hwords).symm.trans hscan)
      exact fun name hname => hderives.isTypeName name (word_mem_tokens hname)
    -- The text is read as the regrouped type, and as one type only.
    refine ⟨(regroup_eq_self_iff type).mp ?_, hnames⟩
    exact (denotes_text_regroup hnames).unique hself
  · rintro ⟨hgrouped, hnames⟩ other
    have hself := denotes_text_regroup hnames
    rw [(regroup_eq_self_iff type).mpr hgrouped] at hself
    constructor
    · exact fun hother => hother.unique hself
    · rintro rfl
      exact hself

end OpenApiClient.Client
