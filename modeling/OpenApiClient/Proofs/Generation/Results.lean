import Mathlib.Logic.Relation
import OpenApiClient.Proofs.Binding.Selection
import OpenApiClient.Proofs.Generation.Relevance

/-!
# Result Types

The type of a method's result comes from one schema of its operation: that of the first JSON media type of the
response that counts. Whatever else the document says about responses does not matter, and neither does the
order in which it lists them.

## Layers

- **Changes**: `ContentChange` and `ResponseChange`, what may be changed in a document.
- **Selection in documents**: the value that decides (`Decides`), which no change affects (`decides_congr`).
- **Selection in operations**: the media type that describes the result (`Describes`), if nothing is lacking
  (`LacksResult`).
- **Reading operations**: the one is read from the other (`resultSchema?_eq_some_iff_decides`).
- **Void**: when the type of a schema reads so (`schemaTypeText_eq_void_iff`).
- **Main statement**: `resultTypeText_selection`.
-/

namespace OpenApiClient.Client

open OpenApiClient.Document
open OpenApiClient.Binding
open Relation (EqvGen)

/-! ## Changes -/

section

variable {knots : Knots} {entries others : List (Value × Value)}

def responsesField : Field := ⟨"responses", none⟩
def contentField : Field := ⟨"content", none⟩

/-- The name of the first JSON media type in the content of a response. -/
def firstJson? (content : List (Value × Value)) : Option Text :=
  content.findSome? fun raw => fittingName? isJson raw.1

/-- A change in the content of a response: an entry more or less, for a media type that is not JSON, or for
another one than the first JSON media type and behind it. -/
inductive ContentChange : List (Value × Value) → List (Value × Value) → Prop
  | other {before after : List (Value × Value)} {key value : Value} :
      fittingName? isJson key = none → ContentChange (before ++ after) (before ++ (key, value) :: after)
  | later {before after : List (Value × Value)} {key value : Value} {name : Text} :
      firstJson? before = some name → text key ≠ .valid name →
        ContentChange (before ++ after) (before ++ (key, value) :: after)

/-- A change in the responses of an operation: their order; an entry more or less for a status other than 200
and 201, or for 201 beside 200; or changes in the content of one of them. Since the order may change, an
entry is at the head wherever it stands. -/
inductive ResponseChange (knots : Knots) : List (Value × Value) → List (Value × Value) → Prop
  | order {entries others : List (Value × Value)} :
      entries.Perm others → ResponseChange knots entries others
  | other {entries : List (Value × Value)} {key value : Value} :
      text key ≠ .valid "200" → text key ≠ .valid "201" →
        ResponseChange knots entries ((key, value) :: entries)
  | fallback {entries : List (Value × Value)} {key value : Value} :
      text key = .valid "201" → (∃ raw ∈ entries, text raw.1 = .valid "200") →
        ResponseChange knots entries ((key, value) :: entries)
  | content {entries : List (Value × Value)} {key key' value value' : Value} :
      text key = text key' →
        EqvGen ContentChange (memberEntries knots contentField value)
          (memberEntries knots contentField value') →
        ResponseChange knots ((key, value) :: entries) ((key', value') :: entries)

/-! ## Selection in documents -/

/-- What each step leaves alone is left alone by any number of steps, forth and back. -/
theorem iff_of_eqvGen {α : Type} {step : α → α → Prop} {p : α → Prop}
    (hstep : ∀ {a b}, step a b → (p a ↔ p b)) {a b : α} (h : EqvGen step a b) : p a ↔ p b := by
  induction h with
  | rel _ _ hrel => exact hstep hrel
  | refl => rfl
  | symm _ _ _ ih => exact ih.symm
  | trans _ _ _ _ _ ih ih' => exact ih.trans ih'

/-- Whether a value stands for the first JSON media type. Of entries for the same media type the last one
counts. -/
def IsFirstJson (content : List (Value × Value)) (value : Value) : Prop :=
  ∃ name raw, firstJson? content = some name ∧ Prevails (fun raw => text raw.1) content raw ∧
    text raw.1 = .valid name ∧ raw.2 = value

/-- Whether a value is the response that counts: that for 200, or without one that for 201. -/
inductive IsChosen (entries : List (Value × Value)) (response : Value) : Prop
  | preferred {key : Value} : (key, response) ∈ entries → text key = .valid "200" → IsChosen entries response
  | fallback {key : Value} : (key, response) ∈ entries → text key = .valid "201" →
      (∀ raw ∈ entries, text raw.1 ≠ .valid "200") → IsChosen entries response

/-- Whether a value decides the type of the result. -/
def Decides (knots : Knots) (entries : List (Value × Value)) (value : Value) : Prop :=
  ∃ response, IsChosen entries response ∧ IsFirstJson (memberEntries knots contentField response) value

theorem firstJson?_append (before after : List (Value × Value)) :
    firstJson? (before ++ after) = (firstJson? before).or (firstJson? after) := by
  rw [firstJson?, List.findSome?_append]
  rfl

theorem isJson_of_firstJson? {name : Text} (h : firstJson? entries = some name) : isJson name := by
  obtain ⟨raw, -, hraw⟩ := List.exists_of_findSome?_eq_some h
  exact (fittingName?_eq_some_iff.mp hraw).2

theorem ContentChange.firstJson?_eq (h : ContentChange entries others) :
    firstJson? others = firstJson? entries := by
  cases h with
  | other hkey =>
    rw [firstJson?_append, firstJson?_append]
    congr 1
    rw [firstJson?, List.findSome?_cons, hkey]
    rfl
  | later hfirst hkey => simp only [firstJson?_append, hfirst, Option.some_or]

/-- The entry that is changed is not one for the first JSON media type. -/
theorem ContentChange.prevails_iff (h : ContentChange entries others) {raw : Value × Value} {name : Text}
    (hname : firstJson? entries = some name) (hraw : text raw.1 = .valid name) :
    Prevails (fun raw => text raw.1) others raw ↔ Prevails (fun raw => text raw.1) entries raw := by
  cases h with
  | other hkey =>
    -- A key that is read as the first JSON name would have a JSON name itself.
    refine prevails_insert_iff fun heq => ?_
    have hfits := fittingName?_eq_some_iff.mpr ⟨heq.trans hraw, isJson_of_firstJson? hname⟩
    exact absurd (hkey.symm.trans hfits) (by simp)
  | @later before after key value first hfirst hkey =>
    -- The first JSON name is found before the place of the change.
    obtain rfl : first = name := by simpa [firstJson?_append, hfirst] using hname
    exact prevails_insert_iff fun heq => hkey (heq.trans hraw)

/-- A change in the content does not affect what stands for the first JSON media type. -/
theorem ContentChange.isFirstJson_iff (h : ContentChange entries others) (value : Value) :
    IsFirstJson entries value ↔ IsFirstJson others value := by
  unfold IsFirstJson
  rw [h.firstJson?_eq]
  constructor
  · rintro ⟨name, raw, hname, hprevails, hraw, rfl⟩
    exact ⟨name, raw, hname, (h.prevails_iff hname hraw).mpr hprevails, hraw, rfl⟩
  · rintro ⟨name, raw, hname, hprevails, hraw, rfl⟩
    exact ⟨name, raw, hname, (h.prevails_iff hname hraw).mp hprevails, hraw, rfl⟩

theorem IsChosen.exists_mem {response : Value} (h : IsChosen entries response) :
    ∃ key, (key, response) ∈ entries := by
  cases h with
  | preferred hmem _ => exact ⟨_, hmem⟩
  | fallback hmem _ _ => exact ⟨_, hmem⟩

theorem IsChosen.of_subset {response : Value} (h : IsChosen entries response) (hsub : entries ⊆ others)
    (hnone : (∀ raw ∈ entries, text raw.1 ≠ .valid "200") → ∀ raw ∈ others, text raw.1 ≠ .valid "200") :
    IsChosen others response := by
  cases h with
  | preferred hmem hkey => exact .preferred (hsub hmem) hkey
  | fallback hmem hkey hnot => exact .fallback (hsub hmem) hkey (hnone hnot)

theorem IsChosen.of_perm {response : Value} (h : IsChosen entries response) (hperm : entries.Perm others) :
    IsChosen others response :=
  h.of_subset hperm.subset fun hnone raw hraw => hnone raw (hperm.mem_iff.mpr hraw)

/-- An entry that is not asked for does not affect which response counts. -/
theorem isChosen_cons_iff {key value response : Value} (hpreferred : text key ≠ .valid "200")
    (hfallback : text key = .valid "201" → ∃ raw ∈ entries, text raw.1 = .valid "200") :
    IsChosen ((key, value) :: entries) response ↔ IsChosen entries response := by
  constructor
  · intro h
    cases h with
    | preferred hmem hkey =>
      rcases List.mem_cons.mp hmem with heq | hmem
      · obtain ⟨rfl, rfl⟩ := Prod.mk.inj heq
        exact absurd hkey hpreferred
      · exact .preferred hmem hkey
    | fallback hmem hkey hnone =>
      rw [List.forall_mem_cons] at hnone
      rcases List.mem_cons.mp hmem with heq | hmem
      · -- The entry for 201 would count only without one for 200.
        obtain ⟨rfl, rfl⟩ := Prod.mk.inj heq
        obtain ⟨raw, hraw, htext⟩ := hfallback hkey
        exact absurd htext (hnone.2 raw hraw)
      · exact .fallback hmem hkey hnone.2
  · exact fun h => h.of_subset (List.subset_cons_self _ _) fun hnone =>
      List.forall_mem_cons.mpr ⟨hpreferred, hnone⟩

/-- Where one response is replaced, another one counts as before, or this one did and its replacement does. -/
theorem IsChosen.replace {key key' value value' response : Value}
    (h : IsChosen ((key, value) :: entries) response) (hkey : text key = text key') :
    IsChosen ((key', value') :: entries) response ∨
      response = value ∧ IsChosen ((key', value') :: entries) value' := by
  have hthere : (key', value') ∈ (key', value') :: entries := List.mem_cons_self
  cases h with
  | preferred hmem htext =>
    rcases List.mem_cons.mp hmem with heq | hmem
    · obtain ⟨rfl, rfl⟩ := Prod.mk.inj heq
      exact .inr ⟨rfl, .preferred hthere (hkey ▸ htext)⟩
    · exact .inl (.preferred (List.mem_cons_of_mem _ hmem) htext)
  | fallback hmem htext hnone =>
    -- The replacement stands for the same status, so there still is none for 200.
    have hnone' : ∀ raw ∈ (key', value') :: entries, text raw.1 ≠ .valid "200" := by
      rw [List.forall_mem_cons] at hnone ⊢
      exact ⟨hkey ▸ hnone.1, hnone.2⟩
    rcases List.mem_cons.mp hmem with heq | hmem
    · obtain ⟨rfl, rfl⟩ := Prod.mk.inj heq
      exact .inr ⟨rfl, .fallback hthere (hkey ▸ htext) hnone'⟩
    · exact .inl (.fallback (List.mem_cons_of_mem _ hmem) htext hnone')

theorem Decides.replace {key key' value value' deciding : Value}
    (h : Decides knots ((key, value) :: entries) deciding) (hkey : text key = text key')
    (hcontent : EqvGen ContentChange (memberEntries knots contentField value)
      (memberEntries knots contentField value')) :
    Decides knots ((key', value') :: entries) deciding := by
  obtain ⟨response, hchosen, hfirst⟩ := h
  rcases hchosen.replace hkey with hstays | ⟨rfl, hchosen⟩
  · exact ⟨response, hstays, hfirst⟩
  · have hiff := iff_of_eqvGen (p := (IsFirstJson · deciding)) (·.isFirstJson_iff deciding) hcontent
    exact ⟨value', hchosen, hiff.mp hfirst⟩

/-- A change in the responses does not affect which value decides. -/
theorem ResponseChange.decides_iff (h : ResponseChange knots entries others) (value : Value) :
    Decides knots entries value ↔ Decides knots others value := by
  cases h with
  | order hperm =>
    refine exists_congr fun response => and_congr_left fun _ => ?_
    exact ⟨fun h => h.of_perm hperm, fun h => h.of_perm hperm.symm⟩
  | other hpreferred hfallback =>
    refine exists_congr fun response => and_congr_left fun _ => ?_
    exact (isChosen_cons_iff hpreferred fun h => absurd h hfallback).symm
  | fallback hkey hthere =>
    refine exists_congr fun response => and_congr_left fun _ => ?_
    have hother : ("201" : Text) ≠ "200" := by decide
    refine (isChosen_cons_iff (fun h => hother ?_) fun _ => hthere).symm
    exact Checked.valid.inj (hkey.symm.trans h)
  | content hkey hcontent =>
    exact ⟨fun h => h.replace hkey hcontent, fun h => h.replace hkey.symm hcontent.symm⟩

/-- Which value decides stays, whatever changes are made in the responses. -/
theorem decides_congr (h : EqvGen (ResponseChange knots) entries others) (value : Value) :
    Decides knots entries value ↔ Decides knots others value :=
  iff_of_eqvGen (p := (Decides knots · value)) (·.decides_iff value) h

end

/-! ## Selection in operations -/

section

variable {operation : Operation} {response : Response} {schema : Schema}

/-- Whether a response of an operation counts: that for 200, or without one that for 201. -/
inductive Counts (operation : Operation) (response : Response) : Prop
  | preferred : (("200" : Text), response) ∈ operation.responses → Counts operation response
  | fallback : (∀ other, (("200" : Text), other) ∉ operation.responses) →
      (("201" : Text), response) ∈ operation.responses → Counts operation response

/-- Whether a media type describes the result of an operation: the first JSON one of the response that
counts. -/
def Describes (operation : Operation) (media : MediaType) : Prop :=
  ∃ response before name after, Counts operation response ∧
    response.content = some (before ++ (name, media) :: after) ∧ isJson name ∧
    ∀ earlier ∈ before, ¬ isJson earlier.1

/-- Whether nothing describes the result of an operation: no response counts, or the one that does has no
content, or no JSON media type in it. -/
inductive LacksResult (operation : Operation) : Prop
  | response : (∀ response, ¬ Counts operation response) → LacksResult operation
  | content {response : Response} : Counts operation response → response.content = none →
      LacksResult operation
  | json {response : Response} {content : List (Text × MediaType)} : Counts operation response →
      response.content = some content → (∀ entry ∈ content, ¬ isJson entry.1) → LacksResult operation

theorem successResponse?_eq_some_iff (h : (operation.responses.map (·.1)).Nodup) :
    successResponse? operation = some response ↔ Counts operation response := by
  rw [successResponse?, Option.or_eq_some_iff, Option.eq_none_iff_forall_ne_some]
  simp only [ne_eq, lookup_eq_some_iff_mem h]
  constructor
  · rintro (hmem | ⟨hnone, hmem⟩)
    · exact .preferred hmem
    · exact .fallback hnone hmem
  · rintro (hmem | ⟨hnone, hmem⟩)
    · exact .inl hmem
    · exact .inr ⟨hnone, hmem⟩

theorem resultSchema?_eq_some_iff (h : (operation.responses.map (·.1)).Nodup) :
    resultSchema? operation = some schema ↔ ∃ media, Describes operation media ∧ media.schema = schema := by
  rw [resultSchema?, Option.bind_eq_some_iff]
  simp only [successResponse?_eq_some_iff h, jsonSchema?, Option.map_eq_some_iff,
    List.find?_eq_some_iff_append]
  constructor
  · rintro ⟨response, hcounts, ⟨name, media⟩, ⟨hjson, before, after, hcontent, hbefore⟩, rfl⟩
    cases hsome : response.content with
    | none => simp [hsome] at hcontent
    | some content =>
      rw [hsome, Option.getD_some] at hcontent
      exact ⟨media, ⟨response, before, name, after, hcounts, hcontent ▸ hsome, hjson,
        by simpa using hbefore⟩, rfl⟩
  · rintro ⟨media, ⟨response, before, name, after, hcounts, hcontent, hjson, hbefore⟩, rfl⟩
    exact ⟨response, hcounts, (name, media),
      ⟨hjson, before, after, by rw [hcontent, Option.getD_some], by simpa using hbefore⟩, rfl⟩

theorem resultSchema?_eq_none_iff (h : (operation.responses.map (·.1)).Nodup) :
    resultSchema? operation = none ↔ LacksResult operation := by
  have hcounts : ∀ response, successResponse? operation = some response ↔ Counts operation response :=
    fun _ => successResponse?_eq_some_iff h
  rw [resultSchema?]
  cases hresponse : successResponse? operation with
  | none =>
    refine iff_of_true rfl (.response fun response hcount => ?_)
    rw [(hcounts response).mpr hcount] at hresponse
    contradiction
  | some response =>
    have hcount := (hcounts response).mp hresponse
    -- At most one response counts.
    have hunique : ∀ other, Counts operation other → other = response := fun other hother =>
      Option.some.inj (((hcounts other).mpr hother).symm.trans hresponse)
    simp only [Option.bind_some, jsonSchema?, Option.map_eq_none_iff, List.find?_eq_none]
    constructor
    · intro hnone
      cases hcontent : response.content with
      | none => exact .content hcount hcontent
      | some content => exact .json hcount hcontent (by simpa [hcontent] using hnone)
    · intro hlacks
      cases hlacks with
      | response hnot => exact absurd hcount (hnot response)
      | content hother hcontent => simp [← hunique _ hother, hcontent]
      | json hother hcontent hnone => simpa [← hunique _ hother, hcontent] using hnone

theorem resultTypeText_eq (operation : Operation) :
    resultTypeText operation = ((resultSchema? operation).map schemaTypeText).getD "void" := by
  unfold resultTypeText resultType resultSchema?
  cases (successResponse? operation).bind jsonSchema? with
  | none => rfl
  | some schema => rfl

end

/-! ## Reading operations -/

section

variable {knots : Knots} {raw : Value} {operation : Operation}

theorem areReadAs_responses (h : Binding.operation knots raw = .valid operation) :
    AreReadAs (Binding.response knots) (memberEntries knots responsesField raw) operation.responses := by
  obtain ⟨entries, hentries, -, -, -, -, hresponses⟩ := operation_eq_valid_iff.mp h
  exact areReadAs_of_read hentries hresponses

theorem areReadAs_content {response : Response} (h : Binding.response knots raw = .valid response) :
    AreReadAs (mediaType knots) (memberEntries knots contentField raw) (response.content.getD []) := by
  obtain ⟨entries, hentries, -, hcontent⟩ := response_eq_valid_iff.mp h
  exact areReadAs_of_read? hentries hcontent

/-- The response of an operation that counts is read from the one that counts in the document. -/
theorem counts_iff (h : Binding.operation knots raw = .valid operation)
    (hkeys : DistinctKeys (memberEntries knots responsesField raw)) {response : Response} :
    Counts operation response ↔
      ∃ value, IsChosen (memberEntries knots responsesField raw) value ∧
        Binding.response knots value = .valid response := by
  have hread := areReadAs_responses h
  -- There is no response for 200 exactly without an entry for 200, since every entry was read.
  have hnone : (∀ other, (("200" : Text), other) ∉ operation.responses) ↔
      ∀ entry ∈ memberEntries knots responsesField raw, text entry.1 ≠ .valid "200" := by
    constructor
    · intro hnone entry hentry htext
      obtain ⟨-, own, -, hown⟩ := hread.exists_read entry hentry
      exact hnone own ((hread.mem_iff_of_distinct hkeys).mpr ⟨entry, hentry, htext, hown⟩)
    · intro hnone own hown
      obtain ⟨entry, hentry, htext, -⟩ := (hread.mem_iff_of_distinct hkeys).mp hown
      exact hnone entry hentry htext
  constructor
  · rintro (hmem | ⟨hnot, hmem⟩)
    · obtain ⟨entry, hentry, htext, hvalid⟩ := (hread.mem_iff_of_distinct hkeys).mp hmem
      exact ⟨entry.2, .preferred hentry htext, hvalid⟩
    · obtain ⟨entry, hentry, htext, hvalid⟩ := (hread.mem_iff_of_distinct hkeys).mp hmem
      exact ⟨entry.2, .fallback hentry htext (hnone.mp hnot), hvalid⟩
  · rintro ⟨value, hchosen, hvalid⟩
    cases hchosen with
    | preferred hentry htext =>
      exact .preferred ((hread.mem_iff_of_distinct hkeys).mpr ⟨_, hentry, htext, hvalid⟩)
    | fallback hentry htext hnot =>
      exact .fallback (hnone.mpr hnot) ((hread.mem_iff_of_distinct hkeys).mpr ⟨_, hentry, htext, hvalid⟩)

/-- The schema of a response is read from what stands for its first JSON media type. -/
theorem jsonSchema?_eq_some_iff {response : Response} (h : Binding.response knots raw = .valid response)
    {schema : Schema} :
    jsonSchema? response = some schema ↔
      ∃ value media, IsFirstJson (memberEntries knots contentField raw) value ∧
        mediaType knots value = .valid media ∧ media.schema = schema := by
  have hread := areReadAs_content h
  rw [jsonSchema?, Option.map_eq_some_iff]
  constructor
  · rintro ⟨pair, hpair, rfl⟩
    obtain ⟨hname, own, hprevails, htext, hvalid⟩ := hread.find?_eq_some_iff.mp hpair
    exact ⟨own.2, pair.2, ⟨pair.1, own, hname, hprevails, htext, rfl⟩, hvalid, rfl⟩
  · rintro ⟨_, media, ⟨name, own, hname, hprevails, htext, rfl⟩, hvalid, rfl⟩
    exact ⟨(name, media), hread.find?_eq_some_iff.mpr ⟨hname, own, hprevails, htext, hvalid⟩, rfl⟩

/-- The schema of the result is read from the value that decides. -/
theorem resultSchema?_eq_some_iff_decides (h : Binding.operation knots raw = .valid operation)
    (hkeys : DistinctKeys (memberEntries knots responsesField raw)) {schema : Schema} :
    resultSchema? operation = some schema ↔
      ∃ value media, Decides knots (memberEntries knots responsesField raw) value ∧
        mediaType knots value = .valid media ∧ media.schema = schema := by
  have hread := areReadAs_responses h
  rw [resultSchema?, Option.bind_eq_some_iff]
  simp only [successResponse?_eq_some_iff hread.nodup, counts_iff h hkeys]
  constructor
  · rintro ⟨response, ⟨own, hchosen, hresponse⟩, hschema⟩
    obtain ⟨value, media, hfirst, hrest⟩ := (jsonSchema?_eq_some_iff hresponse).mp hschema
    exact ⟨value, media, ⟨own, hchosen, hfirst⟩, hrest⟩
  · rintro ⟨value, media, ⟨own, hchosen, hfirst⟩, hrest⟩
    -- The response that counts was read, like every other one.
    obtain ⟨key, hmem⟩ := hchosen.exists_mem
    obtain ⟨-, response, -, hresponse⟩ := hread.exists_read _ hmem
    exact ⟨response, ⟨own, hchosen, hresponse⟩,
      (jsonSchema?_eq_some_iff hresponse).mpr ⟨value, media, hfirst, hrest⟩⟩

end

/-! ## Void -/

section

variable {schema : Schema}

theorem text_eq_void_iff {type : TypeExpr} : type.text = "void" ↔ type = .void := by
  constructor
  · intro h
    -- Every type other than a name has a mark in its text.
    have hmark : ∀ mark ∈ type.text, mark ∈ ("void" : Text) := fun _ hmem => h ▸ hmem
    cases type with
    | name name => exact congrArg TypeExpr.name h
    | record key value =>
      have hmem : CodePoint.char '<' ∈ (TypeExpr.record key value).text := by
        simp [TypeExpr.text, Text.ofString, Text.ofChars]
      exact absurd (hmark _ hmem) (by decide)
    | array element =>
      have hmem : CodePoint.char '[' ∈ (TypeExpr.array element).text := by
        simp [TypeExpr.text, Text.ofString, Text.ofChars]
      exact absurd (hmark _ hmem) (by decide)
    | union left right =>
      have hmem : CodePoint.char '|' ∈ (TypeExpr.union left right).text := by
        simp [TypeExpr.text, Text.ofString, Text.ofChars]
      exact absurd (hmark _ hmem) (by decide)
  · rintro rfl
    rfl

theorem primitiveType_ne_void (name : Text) : primitiveType name ≠ .void := by
  have htable : ∀ entry ∈ primitiveTypes, entry.2 ≠ .void := by decide
  rw [primitiveType]
  cases hlookup : primitiveTypes.lookup name with
  | none => decide
  | some type =>
    obtain ⟨before, after, hsplit, -⟩ := List.lookup_eq_some_iff.mp hlookup
    exact htable (name, type) (by simp [hsplit])

theorem unionOf_memberTypes_ne_void (names : List Text) (nullable : Bool) :
    .unionOf (memberTypes names nullable) ≠ TypeExpr.void := by
  have hmembers : ∀ type ∈ memberTypes names nullable, type ≠ .void := by
    intro type htype
    rcases List.mem_append.mp htype with hname | hnull
    · obtain ⟨name, -, rfl⟩ := List.mem_map.mp hname
      exact primitiveType_ne_void name
    · cases nullable with
      | false => contradiction
      | true =>
        obtain rfl := List.mem_singleton.mp hnull
        decide
  generalize memberTypes names nullable = members at hmembers
  match members with
  | [] => decide
  | [member] => exact hmembers member (List.mem_singleton.mpr rfl)
  | _ :: _ :: _ => exact TypeExpr.noConfusion

/-- The text for a schema is that of the empty result only if a reference names a type so. -/
theorem schemaTypeText_eq_void_iff :
    schemaTypeText schema = "void" ↔
      ∃ reference, schema.target? = some reference ∧ referenceName reference = "void" := by
  rw [schemaTypeText, text_eq_void_iff, eq_comm, ← means_iff]
  constructor
  · intro h
    generalize htype : TypeExpr.void = type at h
    cases h with
    | reference htarget => exact ⟨_, htarget, (TypeExpr.name.inj htype).symm⟩
    | list => contradiction
    | single => exact absurd htype.symm (primitiveType_ne_void _)
    | union => exact absurd htype.symm (unionOf_memberTypes_ne_void _ _)
    | nothing => exact absurd htype (by decide)
  · rintro ⟨reference, htarget, hname⟩
    rw [TypeExpr.void, ← hname]
    exact .reference htarget

end

/-! ## Main statement -/

/-- **One schema decides the result.** However the responses of an operation are changed, apart from the first
JSON media type of the response that counts, the type of the result stays the same. It is void if there is no
such media type, or else the type of its schema, which reads void only where a reference names a type so. -/
theorem resultTypeText_selection {knots : Knots} {raw raw' : Value} {operation other : Operation}
    (hoperation : Binding.operation knots raw = .valid operation)
    (hother : Binding.operation knots raw' = .valid other)
    (hkeys : DistinctKeys (memberEntries knots responsesField raw))
    (hkeys' : DistinctKeys (memberEntries knots responsesField raw'))
    (hchanged : EqvGen (ResponseChange knots) (memberEntries knots responsesField raw)
      (memberEntries knots responsesField raw')) :
    resultTypeText operation = resultTypeText other ∧
      (LacksResult operation → resultTypeText operation = "void") ∧
      (¬ LacksResult operation →
        ∃ media, Describes operation media ∧ resultTypeText operation = schemaTypeText media.schema ∧
          (resultTypeText operation = "void" ↔
            ∃ reference, media.schema.target? = some reference ∧ referenceName reference = "void")) := by
  have hnodup := (areReadAs_responses hoperation).nodup
  have hsame : resultSchema? operation = resultSchema? other := by
    refine Option.ext fun schema => ?_
    rw [resultSchema?_eq_some_iff_decides hoperation hkeys,
      resultSchema?_eq_some_iff_decides hother hkeys']
    simp only [decides_congr hchanged]
  refine ⟨by rw [resultTypeText_eq, hsame, resultTypeText_eq], fun hlacks => ?_, fun hlacks => ?_⟩
  · rw [resultTypeText_eq, (resultSchema?_eq_none_iff hnodup).mpr hlacks]
    rfl
  · cases hschema : resultSchema? operation with
    | none => exact absurd ((resultSchema?_eq_none_iff hnodup).mp hschema) hlacks
    | some schema =>
      obtain ⟨media, hmedia, rfl⟩ := (resultSchema?_eq_some_iff hnodup).mp hschema
      have htext : resultTypeText operation = schemaTypeText media.schema := by
        rw [resultTypeText_eq, hschema]
        rfl
      exact ⟨media, hmedia, htext, htext ▸ schemaTypeText_eq_void_iff⟩

/-- The status is a number in one document and text in the other one, which lacks a response and the plain
text, and has a second success and a second JSON media type instead. -/
theorem resultTypeText_selection_pets :
    let json : Value × Value :=
      (.text "application/json", .map [(.text "schema", .map [(.text "type", .text "string")])])
    let plain : Value × Value := (.text "text/plain", .map [])
    let problem : Value × Value := (.text "application/problem+json", .map [])
    let old : Value := .map [(.text "content", .map [plain, json])]
    let new : Value := .map [(.text "content", .map [json, problem])]
    let missing : Value × Value := (.text "404", .map [])
    let created : Value × Value := (.text "201", .map [])
    let raw : Value := .map [(.text "responses", .map [(.int 200, old), missing])]
    let raw' : Value := .map [(.text "responses", .map [created, (.text "200", new)])]
    let texts : MediaType := { schema := { type := some (.single "string") } }
    let operation : Operation :=
      { responses := [("200", { content := some [("text/plain", {}), ("application/json", texts)] }),
          ("404", {})] }
    ∃ other, Binding.operation [] raw = .valid operation ∧ Binding.operation [] raw' = .valid other ∧
      resultTypeText operation = resultTypeText other ∧ resultTypeText operation = "string" := by
  intro json plain problem old new missing created raw raw' texts operation
  obtain ⟨other, hother⟩ : ∃ other, Binding.operation [] raw' = .valid other := ⟨_, rfl⟩
  refine ⟨other, ?_⟩
  have hstatus : text (.int 200) = text (.text "200") := text_int (by decide +kernel)
  have hcontent : EqvGen ContentChange [plain, json] [json, problem] := by
    have hplain : ContentChange ([] ++ [json]) ([] ++ plain :: [json]) := .other rfl
    have hproblem : ContentChange ([json] ++ []) ([json] ++ problem :: []) :=
      .later rfl (mt Checked.valid.inj (by decide))
    exact .trans _ _ _ (.symm _ _ (.rel _ _ hplain)) (.rel _ _ hproblem)
  have hchanged : EqvGen (ResponseChange []) (memberEntries [] responsesField raw)
      (memberEntries [] responsesField raw') := by
    have horder : ResponseChange [] [(.int 200, old), missing] [missing, (.int 200, old)] :=
      .order (List.Perm.swap _ _ _)
    have hmissing : ResponseChange [] [(.int 200, old)] [missing, (.int 200, old)] :=
      .other (mt Checked.valid.inj (by decide)) (mt Checked.valid.inj (by decide))
    have hrewritten : ResponseChange [] [(.int 200, old)] [(.text "200", new)] :=
      .content hstatus hcontent
    have hcreated : ResponseChange [] [(.text "200", new)] [created, (.text "200", new)] :=
      .fallback rfl ⟨_, List.mem_singleton.mpr rfl, rfl⟩
    exact .trans _ _ _ (.rel _ _ horder) (.trans _ _ _ (.symm _ _ (.rel _ _ hmissing))
      (.trans _ _ _ (.rel _ _ hrewritten) (.rel _ _ hcreated)))
  have hkeys : DistinctKeys (memberEntries [] responsesField raw) := by
    show List.Nodup [text (.int 200), .valid "404"]
    rw [hstatus]
    exact List.pairwise_pair.mpr (mt Checked.valid.inj (by decide))
  have hkeys' : DistinctKeys (memberEntries [] responsesField raw') :=
    List.pairwise_pair.mpr (mt Checked.valid.inj (by decide))
  have hoperation : Binding.operation [] raw = .valid operation := by
    have hfound : Field.find? ⟨"responses", none⟩ (rawEntries [] raw) =
        some ("responses", .map (memberEntries [] responsesField raw)) := rfl
    refine operation_eq_valid_iff.mpr ⟨rawEntries [] raw, rfl, rfl, rfl, rfl, rfl, ?_⟩
    rw [Field.read, hfound]
    refine Checked.under_eq_valid_iff.mpr (mapping_eq_valid_iff.mpr ⟨_, rfl, operation.responses, ?_, rfl⟩)
    exact List.cons_eq_cons.mpr ⟨entry_eq_valid_iff.mpr ⟨hstatus, rfl⟩, rfl⟩
  obtain ⟨hsame, -⟩ := resultTypeText_selection hoperation hother hkeys hkeys' hchanged
  exact ⟨hoperation, hother, hsame, rfl⟩

end OpenApiClient.Client
