import OpenApiClient.Proofs.Generation.Source

/-!
# Delimiting

Reading a row of items off what was written for them, one behind the other. That works when every item
shows where it ends, and what stands behind the last one begins no further item.

## Layers

- **Cuts**: two equal texts that are cut at their first, or last, delimiter have equal parts.
- **Rows**: `SelfDelimiting.flatMap_append_inj`.
- **Lines**: lines without line feeds can be read off their text (`linesText_inj`).
-/

namespace OpenApiClient.TypeScript

variable {α β : Type}

/-! ## Cuts -/

/-- Equal texts that are cut where the first element stands that does not belong. -/
theorem append_inj_of_head (belongs : β → Prop) {front front' back back' : List β}
    (hfront : ∀ x ∈ front, belongs x) (hfront' : ∀ x ∈ front', belongs x)
    (hback : ∀ x ∈ back.head?, ¬ belongs x) (hback' : ∀ x ∈ back'.head?, ¬ belongs x)
    (h : front ++ back = front' ++ back') : front = front' ∧ back = back' := by
  induction front generalizing front' with
  | nil =>
    cases front' with
    | nil => exact ⟨rfl, h⟩
    | cons x front' =>
      -- What stands behind the first front is the beginning of the second one.
      obtain rfl : back = x :: (front' ++ back') := h
      exact absurd (hfront' x List.mem_cons_self) (hback x rfl)
  | cons x front ih =>
    cases front' with
    | nil =>
      obtain rfl : x :: (front ++ back) = back' := h
      exact absurd (hfront x List.mem_cons_self) (hback' x rfl)
    | cons x' front' =>
      rw [List.forall_mem_cons] at hfront hfront'
      obtain ⟨rfl, hrest⟩ := List.cons.inj h
      obtain ⟨rfl, rfl⟩ := ih hfront.2 hfront'.2 hrest
      exact ⟨rfl, rfl⟩

/-- Equal texts that are cut at the first place of a mark. -/
theorem append_inj_of_mark {mark : β} {front front' back back' : List β} (hfront : mark ∉ front)
    (hfront' : mark ∉ front') (h : front ++ mark :: back = front' ++ mark :: back') :
    front = front' ∧ back = back' := by
  have hcut := append_inj_of_head (· ≠ mark)
    (fun x hx hmark => hfront (hmark ▸ hx)) (fun x hx hmark => hfront' (hmark ▸ hx))
    (by simp) (by simp) h
  exact ⟨hcut.1, (List.cons.inj hcut.2).2⟩

/-- Equal texts that are cut where the last element stands that does not belong. -/
theorem append_inj_of_getLast (belongs : β → Prop) {front front' back back' : List β}
    (hback : ∀ x ∈ back, belongs x) (hback' : ∀ x ∈ back', belongs x)
    (hfront : ∀ x ∈ front.getLast?, ¬ belongs x) (hfront' : ∀ x ∈ front'.getLast?, ¬ belongs x)
    (h : front ++ back = front' ++ back') : front = front' ∧ back = back' := by
  have hreverse : back.reverse ++ front.reverse = back'.reverse ++ front'.reverse := by
    rw [← List.reverse_append, ← List.reverse_append, h]
  obtain ⟨hbacks, hfronts⟩ := append_inj_of_head belongs
    (by simpa using hback) (by simpa using hback') (by simpa using hfront) (by simpa using hfront')
    hreverse
  exact ⟨List.reverse_inj.mp hfronts, List.reverse_inj.mp hbacks⟩

/-! ## Rows -/

/-- Whether what is written for an item shows where it ends, whatever follows. -/
def SelfDelimiting (belongs : α → Prop) (write : α → List β) : Prop :=
  ∀ item other rest rest', belongs item → belongs other →
    write item ++ rest = write other ++ rest' → item = other ∧ rest = rest'

/-- Whether a text does not begin with what is written for an item. -/
def BeginsNone (belongs : α → Prop) (write : α → List β) (text : List β) : Prop :=
  ∀ item rest, belongs item → write item ++ rest ≠ text

theorem SelfDelimiting.flatMap_append_inj {belongs : α → Prop} {write : α → List β}
    (h : SelfDelimiting belongs write) {items others : List α} {rest rest' : List β}
    (hitems : ∀ item ∈ items, belongs item) (hothers : ∀ item ∈ others, belongs item)
    (hrest : BeginsNone belongs write rest) (hrest' : BeginsNone belongs write rest')
    (heq : items.flatMap write ++ rest = others.flatMap write ++ rest') :
    items = others ∧ rest = rest' := by
  induction items generalizing others with
  | nil =>
    cases others with
    | nil => exact ⟨rfl, heq⟩
    | cons other others =>
      -- The first rest would have to begin with an item of the second row.
      rw [List.flatMap_cons, List.append_assoc] at heq
      exact absurd heq.symm (hrest other _ (hothers other List.mem_cons_self))
  | cons item items ih =>
    rw [List.forall_mem_cons] at hitems
    rw [List.flatMap_cons, List.append_assoc] at heq
    cases others with
    | nil => exact absurd heq (hrest' item _ hitems.1)
    | cons other others =>
      rw [List.forall_mem_cons] at hothers
      rw [List.flatMap_cons, List.append_assoc] at heq
      -- Both rows have the same first item, and the same text behind it.
      obtain ⟨rfl, hrests⟩ := h item other _ _ hitems.1 hothers.1 heq
      obtain ⟨rfl, rfl⟩ := ih hitems.2 hothers.2 hrests
      exact ⟨rfl, rfl⟩

/-! ## Lines -/

theorem selfDelimiting_line :
    SelfDelimiting (fun line : Text => lineFeed ∉ line) fun line => line ++ [lineFeed] := by
  intro line other rest rest' hline hother h
  rw [List.append_assoc, List.append_assoc] at h
  exact append_inj_of_mark hline hother h

theorem linesText_inj {lines others : List Text} (hlines : ∀ line ∈ lines, lineFeed ∉ line)
    (hothers : ∀ line ∈ others, lineFeed ∉ line) (h : linesText lines = linesText others) :
    lines = others := by
  have hnone : BeginsNone (fun line : Text => lineFeed ∉ line) (fun line => line ++ [lineFeed]) [] := by
    intro line rest _
    simp
  -- Behind the last line stands nothing, and every line has at least its line feed.
  have heq := congrArg (· ++ []) h
  exact (selfDelimiting_line.flatMap_append_inj hlines hothers hnone hnone heq).1

end OpenApiClient.TypeScript
