import OpenApiClient.Text.CodePoint

/-!
# Identifiers

Which texts are identifiers of the generated source. The plain characters of identifiers are fixed by
the language; beyond `U+007F` they follow the version of the character database in use, so that all
statements here hold for every such choice (an `Alphabet`). Words of the grammar are no identifiers;
some more are no references inside a class, whose code is strict and whose methods are asynchronous.
Types have words of their own: a few reserved ones name a type, and a few identifiers do not, because
they make a type from the one that follows.
-/

namespace OpenApiClient.TypeScript

/-! ## Alphabets -/

/-- The characters of identifiers: those that may begin one, and those that may follow. -/
structure Alphabet where
  starts : Char → Bool
  continues : Char → Bool
  starts_plain : ∀ c : Char, c.toNat < 0x80 → starts c = (c.isAlpha || c == '_' || c == '$')
  continues_plain : ∀ c : Char, c.toNat < 0x80 →
    continues c = (c.isAlphanum || c == '_' || c == '$')
  continues_of_starts : ∀ c : Char, starts c → continues c

namespace Alphabet

/-- The alphabet without any characters beyond the plain ones. -/
def plain : Alphabet where
  starts c := c.isAlpha || c == '_' || c == '$'
  continues c := c.isAlphanum || c == '_' || c == '$'
  starts_plain _ _ := rfl
  continues_plain _ _ := rfl
  continues_of_starts c h := by
    simp only [Char.isAlphanum, Bool.or_eq_true] at h ⊢
    rcases h with (h | h) | h <;> simp [h]

instance : Inhabited Alphabet := ⟨plain⟩

/-! ## Words -/

/-- Whether a text has the form of an identifier. -/
def isWord (alphabet : Alphabet) : Text → Bool
  | [] => false
  | first :: rest => first.is alphabet.starts && rest.all (·.is alphabet.continues)

/-- The words that the grammar keeps for itself. -/
def reservedWords : List Text :=
  ["break", "case", "catch", "class", "const", "continue", "debugger", "default", "delete", "do",
   "else", "enum", "export", "extends", "false", "finally", "for", "function", "if", "import",
   "in", "instanceof", "new", "null", "return", "super", "switch", "this", "throw", "true", "try",
   "typeof", "var", "void", "while", "with"].map Text.ofString

/-- The further words that name nothing in an asynchronous method of a class. -/
def strictWords : List Text :=
  ["await", "implements", "interface", "let", "package", "private", "protected", "public", "static",
   "yield"].map Text.ofString

/-- Whether a text is an identifier. -/
def isIdentifier (alphabet : Alphabet) (word : Text) : Bool :=
  alphabet.isWord word && !reservedWords.contains word

/-- Whether a text can refer to a parameter inside a method. -/
def isReference (alphabet : Alphabet) (word : Text) : Bool :=
  alphabet.isIdentifier word && !strictWords.contains word

/-- The reserved words that are types. -/
def keywordTypes : List Text := ["null", "void"]

/-- The identifiers that make a type from the type that follows them, and name none. -/
def typeOperators : List Text := ["infer", "keyof", "readonly", "unique"]

/-- Whether a text names a type. -/
def isTypeName (alphabet : Alphabet) (word : Text) : Bool :=
  keywordTypes.contains word || alphabet.isIdentifier word && !typeOperators.contains word

/-! ## Code points of words -/

/-- Every code point of a word may follow in one. -/
theorem continues_of_isWord {alphabet : Alphabet} {word : Text} (h : alphabet.isWord word) :
    ∀ point ∈ word, point.is alphabet.continues := by
  cases word with
  | nil => simp
  | cons first rest =>
    simp only [isWord, Bool.and_eq_true, List.all_eq_true] at h
    intro point hpoint
    rcases List.mem_cons.mp hpoint with rfl | hrest
    · cases point with
      | char c => exact alphabet.continues_of_starts c h.1
      | surrogate offset => exact absurd h.1 Bool.false_ne_true
    · exact h.2 point hrest

theorem isWord_of_isReference {alphabet : Alphabet} {word : Text} (h : alphabet.isReference word) :
    alphabet.isWord word := by
  simp only [isReference, isIdentifier, Bool.and_eq_true] at h
  exact h.1.1

/-- A plain character that is neither letter, digit, underscore nor dollar sign is in no word. -/
theorem not_continues (alphabet : Alphabet) {mark : Char} (hplain : mark.toNat < 0x80)
    (hmark : ¬ plain.continues mark) : ¬ (CodePoint.char mark).is alphabet.continues := by
  rw [CodePoint.is, alphabet.continues_plain mark hplain]
  exact hmark

theorem isWord_of_isIdentifier {alphabet : Alphabet} {word : Text}
    (h : alphabet.isIdentifier word) : alphabet.isWord word := by
  rw [isIdentifier, Bool.and_eq_true] at h
  exact h.1

/-! ## Plain words -/

private theorem toNat_lt_of_isAlpha {c : Char} (h : c.isAlpha || c == '_' || c == '$') :
    c.toNat < 0x80 := by
  have hupper : c.isUpper = decide ('A'.val ≤ c.val ∧ c.val ≤ 'Z'.val) := rfl
  have hlower : c.isLower = decide ('a'.val ≤ c.val ∧ c.val ≤ 'z'.val) := by
    rw [Bool.decide_and]
    rfl
  have halpha : c.isAlpha = (c.isUpper || c.isLower) := rfl
  simp only [halpha, hupper, hlower, Bool.or_eq_true, decide_eq_true_eq, beq_iff_eq,
    UInt32.le_iff_toNat_le] at h
  rcases h with ((h | h) | rfl) | rfl
  · exact Nat.lt_of_le_of_lt h.2 (by decide)
  · exact Nat.lt_of_le_of_lt h.2 (by decide)
  · decide
  · decide

private theorem toNat_lt_of_isAlphanum {c : Char} (h : c.isAlphanum || c == '_' || c == '$') :
    c.toNat < 0x80 := by
  simp only [Char.isAlphanum, Bool.or_eq_true] at h
  rcases h with ((h | h) | h) | h
  · exact toNat_lt_of_isAlpha (by simp [h])
  · simp only [Char.isDigit, Bool.and_eq_true, decide_eq_true_eq, UInt32.le_iff_toNat_le] at h
    exact Nat.lt_of_le_of_lt h.2 (by decide)
  · exact toNat_lt_of_isAlpha (by simp [h])
  · exact toNat_lt_of_isAlpha (by simp [h])

theorem toNat_lt_of_continues {c : Char} (h : plain.continues c) : c.toNat < 0x80 :=
  toNat_lt_of_isAlphanum h

/-- Plain words are words of every alphabet. -/
theorem isWord_of_plain (alphabet : Alphabet) {word : Text} (h : plain.isWord word) :
    alphabet.isWord word := by
  cases word with
  | nil => contradiction
  | cons first rest =>
    simp only [isWord, Bool.and_eq_true, List.all_eq_true] at h ⊢
    constructor
    · cases first with
      | surrogate offset => exact absurd h.1 Bool.false_ne_true
      | char c =>
        rw [CodePoint.is, alphabet.starts_plain c (toNat_lt_of_isAlpha h.1)]
        exact h.1
    · intro point hpoint
      have hplain := h.2 point hpoint
      cases point with
      | surrogate offset => exact absurd hplain Bool.false_ne_true
      | char c =>
        rw [CodePoint.is, alphabet.continues_plain c (toNat_lt_of_isAlphanum hplain)]
        exact hplain

/-- Plain type names are type names of every alphabet. -/
theorem isTypeName_of_plain (alphabet : Alphabet) {word : Text} (h : plain.isTypeName word) :
    alphabet.isTypeName word := by
  simp only [isTypeName, isIdentifier, Bool.or_eq_true, Bool.and_eq_true] at h ⊢
  rcases h with h | ⟨⟨hword, hreserved⟩, hoperator⟩
  · exact .inl h
  · exact .inr ⟨⟨isWord_of_plain alphabet hword, hreserved⟩, hoperator⟩

theorem isWord_of_isTypeName {alphabet : Alphabet} {word : Text} (h : alphabet.isTypeName word) :
    alphabet.isWord word := by
  simp only [isTypeName, Bool.or_eq_true, Bool.and_eq_true] at h
  rcases h with h | h
  · have hplain : ∀ keyword ∈ keywordTypes, plain.isWord keyword := by decide
    exact isWord_of_plain alphabet (hplain word (by simpa using h))
  · exact isWord_of_isIdentifier h.1

/-- An identifier names a type unless it is a type operator. -/
theorem isTypeName_iff_of_isIdentifier {alphabet : Alphabet} {word : Text}
    (h : alphabet.isIdentifier word) : alphabet.isTypeName word ↔ word ∉ typeOperators := by
  have hkeyword : word ∉ keywordTypes := by
    intro hmem
    have hreserved : ∀ keyword ∈ keywordTypes, keyword ∈ reservedWords := by decide
    rw [isIdentifier, Bool.and_eq_true, Bool.not_eq_true', ← Bool.not_eq_true] at h
    exact h.2 (by simpa using hreserved word hmem)
  simp [isTypeName, hkeyword, h]

end Alphabet

end OpenApiClient.TypeScript
