import OpenApiClient.Proofs.FileTree.Writing

/-!
# Descending Paths

A path that never goes up leads from where it starts to its names put below. So it can be followed
exactly if something stands at its place and it is short enough, and a source can be written to it exactly
if nothing but directories stand on the way and no directory stands at the place itself. What stands in the
tree afterwards is then known at every place.

## Layers

- **Places**: what stands above an entry (`entry?_of_isAbove`).
- **Following**: `follow_eq_ok_iff` and `entryOf_eq_ok_iff` for descending paths.
- **Directories**: those that are missing on the way can be created (`exists_haveDirectories`).
- **Sources**: `Admits`, when a source can be written (`exists_writeSource_iff`).
- **Trees**: what stands where after that (`WritesOnly.entry?_eq`).
-/

namespace OpenApiClient

/-! ## Places -/

/-- Whether a place lies on the way to another one. -/
def Location.IsAbove (outer place : Location) : Prop :=
  outer <:+ place ∧ outer ≠ place

instance (outer place : Location) : Decidable (Location.IsAbove outer place) :=
  inferInstanceAs (Decidable (outer <:+ place ∧ outer ≠ place))

open Location (IsAbove)

/-- Directories stand above everything that stands in a tree. -/
theorem FileTree.entry?_of_isAbove {tree : FileTree} {outer place : Location}
    (h : (tree.entry? place).isSome) (habove : IsAbove outer place) :
    tree.entry? outer = some .directory := by
  obtain ⟨hsuffix, hne⟩ := habove
  induction place with
  | nil => exact absurd (List.suffix_nil.mp hsuffix) hne
  | cons name place ih =>
    have hparent : tree.entry? place = some .directory := tree.closed name place h
    rcases List.suffix_cons_iff.mp hsuffix with rfl | hsuffix
    · exact absurd rfl hne
    · by_cases hplace : outer = place
      · rw [hplace, hparent]
      · exact ih (by simp [hparent]) hsuffix hplace

namespace PathName

/-- Whether a path never goes up. -/
def Descends (path : PathName) : Prop :=
  ".." ∉ path.names

instance (path : PathName) : Decidable path.Descends :=
  inferInstanceAs (Decidable (".." ∉ path.names))

/-- Whether a path and all its names are short enough to be followed. -/
structure IsShort (path : PathName) : Prop where
  text : path.text.utf8ByteSize ≤ FileSystem.pathLimit
  names : ∀ name ∈ path.names, name.utf8ByteSize ≤ FileSystem.nameLimit

/-- A path without its last name is no longer than the path, or it is a dot. -/
theorem text_parent_le {path : PathName} (h : path.text.utf8ByteSize ≤ FileSystem.pathLimit) :
    path.parent.text.utf8ByteSize ≤ FileSystem.pathLimit := by
  obtain ⟨slashes, names⟩ := path
  cases names with
  | nil => exact h
  | cons name outer =>
    simp only [PathName.text, List.isEmpty_cons, Bool.and_false, Bool.false_eq_true, if_false,
      List.reverse_cons, String.utf8ByteSize_append] at h
    have hparent : parent ⟨slashes, name :: outer⟩ = ⟨slashes, outer⟩ := rfl
    rw [hparent, PathName.text]
    split
    · decide
    · by_cases houter : outer = []
      · subst houter
        rw [String.utf8ByteSize_append, List.reverse_nil, String.intercalate_nil]
        simp only [String.utf8ByteSize_empty]
        omega
      · rw [String.intercalate_append_of_ne_nil (by simpa using houter) (by simp)] at h
        simp only [String.utf8ByteSize_append] at h ⊢
        omega

theorem IsShort.parent {path : PathName} (h : path.IsShort) : path.parent.IsShort where
  text := text_parent_le h.text
  names name hname := h.names name (List.mem_of_mem_tail hname)

theorem Descends.parent {path : PathName} (h : path.Descends) : path.parent.Descends :=
  fun hname => h (List.mem_of_mem_tail hname)

end PathName

namespace FileSystem

variable {fs : FileSystem} {path : PathName}

/-! ## Following -/

theorem entry?_start (fs : FileSystem) (path : PathName) :
    fs.tree.entry? (fs.start path) = some .directory := by
  unfold start
  split
  · exact fs.tree.rooted
  · exact fs.here_directory

/-- The names of a descending path are put below the place where it starts. -/
theorem placeOf_of_descends (fs : FileSystem) (h : path.Descends) :
    fs.placeOf path = path.names ++ fs.start path := by
  rw [placeOf_eq]
  obtain ⟨slashes, names⟩ := path
  induction names with
  | nil => rfl
  | cons name outer ih =>
    simp only [PathName.Descends, List.mem_cons, not_or] at h
    have hstep : ∀ place, step name place = name :: place := fun place => by
      simp [step, Ne.symm h.1]
    rw [List.foldr_cons, hstep]
    exact congrArg (name :: ·) (ih h.2)

theorem nameAt_eq_ok_iff {place next : Location} {name : String} (hname : name ≠ "..") :
    fs.nameAt place name = .ok next ↔
      fs.tree.entry? place = some .directory ∧ name.utf8ByteSize ≤ nameLimit ∧ name :: place = next := by
  unfold nameAt
  split
  case h_1 hnone => simp [hnone]
  case h_2 hdirectory =>
    rw [if_neg (by simpa using hname)]
    split
    case isTrue hlong => simp [Nat.not_le.mpr hlong]
    case isFalse hshort => simp [hdirectory, Nat.not_lt.mp hshort]
  case h_3 entry hne hentry => simp_all

theorem follow_eq_ok_iff {start place : Location} {names : List String} (hnames : ".." ∉ names)
    (hstart : fs.tree.entry? start = some .directory) :
    fs.follow start names = .ok place ↔
      (∀ name ∈ names, name.utf8ByteSize ≤ nameLimit) ∧ names ++ start = place ∧
        (fs.tree.entry? place).isSome := by
  induction names generalizing place with
  | nil =>
    simp only [follow, Except.ok.injEq, List.not_mem_nil, false_imp_iff, implies_true, true_and,
      List.nil_append]
    constructor
    · rintro rfl
      exact ⟨rfl, by simp [hstart]⟩
    · exact fun h => h.1
  | cons name outer ih =>
    rw [List.mem_cons, not_or] at hnames
    have hname : name ≠ ".." := fun h => hnames.1 h.symm
    rw [List.forall_mem_cons]
    constructor
    · intro h
      obtain ⟨middle, houter, hnext, hsome⟩ := follow_cons_eq_ok h
      obtain ⟨hshort, rfl, -⟩ := (ih hnames.2).mp houter
      obtain ⟨-, hlast, rfl⟩ := (nameAt_eq_ok_iff hname).mp hnext
      exact ⟨⟨hlast, hshort⟩, rfl, hsome⟩
    · rintro ⟨⟨hlast, hshort⟩, rfl, hsome⟩
      -- What stands at the end stands in directories.
      have hdirectory : fs.tree.entry? (outer ++ start) = some .directory :=
        fs.tree.closed name _ hsome
      have houter := (ih hnames.2).mpr ⟨hshort, rfl, by simp [hdirectory]⟩
      have hnext := (nameAt_eq_ok_iff hname).mpr ⟨hdirectory, hlast, rfl⟩
      simp only [follow, houter, hnext, bind, Except.bind]
      exact if_pos hsome

/-- Following fails where something is missing on a way through directories. -/
theorem follow_eq_missing {start : Location} {names : List String} (hnames : ".." ∉ names)
    (hstart : fs.tree.entry? start = some .directory)
    (hshort : ∀ name ∈ names, name.utf8ByteSize ≤ nameLimit)
    (hway : ∀ outer, outer <:+ names → ∀ entry, fs.tree.entry? (outer ++ start) = some entry →
      entry = .directory)
    (hnone : fs.tree.entry? (names ++ start) = none) : fs.follow start names = .error .missing := by
  induction names with
  | nil => simp [hstart] at hnone
  | cons name outer ih =>
    rw [List.mem_cons, not_or] at hnames
    rw [List.forall_mem_cons] at hshort
    have hway' : ∀ shorter, shorter <:+ outer → ∀ entry,
        fs.tree.entry? (shorter ++ start) = some entry → entry = .directory :=
      fun shorter hshorter => hway shorter (hshorter.trans (List.suffix_cons name outer))
    cases houter : fs.tree.entry? (outer ++ start) with
    | none =>
      rw [follow, ih hnames.2 hshort.2 hway' houter]
      rfl
    | some entry =>
      -- The last name is the one that is missing.
      obtain rfl := hway' outer List.suffix_rfl entry houter
      have hfollow := (follow_eq_ok_iff hnames.2 hstart).mpr ⟨hshort.2, rfl, by simp [houter]⟩
      have hnext : fs.nameAt (outer ++ start) name = .ok (name :: (outer ++ start)) :=
        (nameAt_eq_ok_iff fun h => hnames.1 h.symm).mpr ⟨houter, hshort.1, rfl⟩
      rw [List.cons_append] at hnone
      simp only [follow, hfollow, hnext, bind, Except.bind, hnone]
      rfl

theorem entryOf_eq_ok_iff {entry : Entry} (hpath : path.Descends) :
    fs.entryOf path = .ok entry ↔
      path.IsShort ∧ fs.tree.entry? (fs.placeOf path) = some entry := by
  have hfollow := fun place => @follow_eq_ok_iff fs _ place _ hpath (entry?_start fs path)
  rw [placeOf_of_descends fs hpath, entryOf, locate]
  by_cases hlong : pathLimit < path.text.utf8ByteSize
  · have hshort : ¬ path.IsShort := fun h => Nat.not_le.mpr hlong h.text
    simp [hlong, hshort, bind, Except.bind]
  · rw [if_neg hlong]
    constructor
    · intro h
      cases hplace : fs.follow (fs.start path) path.names with
      | error fault => simp [hplace, bind, Except.bind] at h
      | ok place =>
        obtain ⟨hnames, rfl, hsome⟩ := (hfollow place).mp hplace
        obtain ⟨own, hown⟩ := Option.isSome_iff_exists.mp hsome
        simp only [hplace, bind, Except.bind, hown, Except.ok.injEq] at h
        exact ⟨⟨Nat.not_lt.mp hlong, hnames⟩, by rw [hown, h]⟩
    · rintro ⟨hshort, hentry⟩
      have hplace := (hfollow _).mpr ⟨hshort.names, rfl, by simp [hentry]⟩
      simp only [hplace, bind, Except.bind, hentry]

theorem bytesOf_eq_ok_iff {bytes : List UInt8} (hpath : path.Descends) :
    fs.bytesOf path = .ok bytes ↔
      path.IsShort ∧ fs.tree.entry? (fs.placeOf path) = some (.file bytes) := by
  rw [← entryOf_eq_ok_iff hpath, bytesOf]
  rcases fs.entryOf path with _ | (_ | _ | _) <;> simp

/-! ## Directories -/

theorem target_of_descends {slashes name : String} {outer : List String}
    (hpath : PathName.Descends ⟨slashes, name :: outer⟩)
    (hshort : PathName.IsShort ⟨slashes, name :: outer⟩)
    (houter : fs.tree.entry? (fs.placeOf ⟨slashes, outer⟩) = some .directory) :
    fs.target ⟨slashes, name :: outer⟩ = .ok (some (name, fs.placeOf ⟨slashes, outer⟩)) := by
  have hdown : PathName.Descends ⟨slashes, outer⟩ := hpath.parent
  have hname : name ≠ ".." := fun h => hpath (by simp [h])
  rw [placeOf_of_descends fs hdown] at houter ⊢
  have hfollow := (follow_eq_ok_iff hdown (entry?_start fs ⟨slashes, outer⟩)).mpr
    ⟨hshort.parent.names, rfl, by simp [houter]⟩
  have hnext := (nameAt_eq_ok_iff hname).mpr
    ⟨houter, hshort.names name List.mem_cons_self, rfl⟩
  have hstart : fs.start ⟨slashes, name :: outer⟩ = fs.start ⟨slashes, outer⟩ := rfl
  simp only [target, if_neg (Nat.not_lt.mpr hshort.text), hstart, hfollow, hnext, bind, Except.bind,
    pure, Except.pure]
  rw [if_neg (by simpa using hname)]

/-- Whether nothing but a directory stands at a place. -/
def IsPassable (fs : FileSystem) (place : Location) : Prop :=
  ∀ entry, fs.tree.entry? place = some entry → entry = .directory

/-- In a directory, a directory is had where nothing else stands. -/
theorem exists_haveDirectory {slashes name : String} {outer : List String}
    (hpath : PathName.Descends ⟨slashes, name :: outer⟩)
    (hshort : PathName.IsShort ⟨slashes, name :: outer⟩)
    (houter : fs.tree.entry? (fs.placeOf ⟨slashes, outer⟩) = some .directory)
    (hpassable : fs.IsPassable (fs.placeOf ⟨slashes, name :: outer⟩)) :
    ∃ made, fs.haveDirectory ⟨slashes, name :: outer⟩ = .ok made ∧
      made.tree.entry? (fs.placeOf ⟨slashes, name :: outer⟩) = some .directory := by
  have htarget := target_of_descends hpath hshort houter
  have hplace := (placeOf_of_target htarget).2
  rw [← hplace] at hpassable ⊢
  cases hentry : fs.tree.entry? (name :: fs.placeOf ⟨slashes, outer⟩) with
  | none =>
    refine ⟨fs.put name (fs.placeOf ⟨slashes, outer⟩) .directory, ?_, ?_⟩
    · simp only [haveDirectory, makeDirectory, htarget, hentry]
    · exact FileTree.entry?_put_self houter (by simp [hentry])
  | some entry =>
    obtain rfl := hpassable entry hentry
    have hthere : fs.entryOf ⟨slashes, name :: outer⟩ = .ok .directory :=
      (entryOf_eq_ok_iff hpath).mpr ⟨hshort, hplace ▸ hentry⟩
    refine ⟨fs, ?_, hentry⟩
    simp only [haveDirectory, makeDirectory_of_entryOf hthere, hthere]

/-- The directories on a descending way are had if nothing else stands on it. -/
theorem exists_haveDirectories {slashes : String} {names : List String}
    (hpath : PathName.Descends ⟨slashes, names⟩) (hshort : PathName.IsShort ⟨slashes, names⟩)
    (hway : ∀ outer, outer <:+ names → fs.IsPassable (fs.placeOf ⟨slashes, outer⟩)) :
    ∃ after, fs.haveDirectories slashes names = (after, .ok ()) ∧
      after.tree.entry? (fs.placeOf ⟨slashes, names⟩) = some .directory := by
  induction names with
  | nil =>
    have hstart := entry?_start fs ⟨slashes, []⟩
    have hthere : fs.entryOf ⟨slashes, []⟩ = .ok .directory :=
      (entryOf_eq_ok_iff hpath).mpr ⟨hshort, hstart⟩
    exact ⟨fs, haveDirectories_of_entryOf hthere, hstart⟩
  | cons name outer ih =>
    have hpassable := hway _ List.suffix_rfl
    cases houter : fs.tree.entry? (fs.placeOf ⟨slashes, outer⟩) with
    | some entry =>
      obtain rfl := hway outer (List.suffix_cons name outer) entry houter
      obtain ⟨made, hmade, hdirectory⟩ := exists_haveDirectory hpath hshort houter hpassable
      exact ⟨made, by simp only [haveDirectories, hmade], hdirectory⟩
    | none =>
      -- The outer directories are created first; they are all that is new.
      obtain ⟨middle, hmiddle, hdirectory⟩ := ih hpath.parent hshort.parent
        fun shorter hshorter => hway shorter (hshorter.trans (List.suffix_cons name outer))
      have hadds := addsDirectories_haveDirectories slashes fs outer
      rw [hmiddle] at hadds
      have hplace := placeOf_congr hadds.here
      have hpassable' : middle.IsPassable (middle.placeOf ⟨slashes, name :: outer⟩) := by
        intro entry hentry
        rw [hplace] at hentry
        cases hbefore : fs.tree.entry? (fs.placeOf ⟨slashes, name :: outer⟩) with
        | none =>
          rw [(hadds.added _ hbefore (by simp [hentry])).1] at hentry
          exact (Option.some.inj hentry).symm
        | some own =>
          rw [hadds.kept _ _ hbefore] at hentry
          rw [← Option.some.inj hentry, hpassable own hbefore]
      obtain ⟨made, hmade, hmadeDirectory⟩ := exists_haveDirectory hpath hshort
        (by rwa [hplace]) hpassable'
      refine ⟨made, ?_, by rwa [hplace] at hmadeDirectory⟩
      have hfollow : fs.follow (fs.start ⟨slashes, name :: outer⟩) outer = .error .missing := by
        apply follow_eq_missing hpath.parent (entry?_start fs _) hshort.parent.names
        · intro shorter hshorter
          have hdown : PathName.Descends ⟨slashes, shorter⟩ :=
            fun h => hpath (List.mem_cons_of_mem _ (hshorter.mem h))
          have hpass := hway shorter (hshorter.trans (List.suffix_cons name outer))
          rwa [placeOf_of_descends fs hdown] at hpass
        · exact placeOf_of_descends fs hpath.parent ▸ houter
      have hmissing : fs.haveDirectory ⟨slashes, name :: outer⟩ = .error .missing := by
        simp only [haveDirectory, makeDirectory, target, if_neg (Nat.not_lt.mpr hshort.text), hfollow,
          bind, Except.bind]
      simp only [haveDirectories, hmissing, hmiddle, hmade]

/-! ## Sources -/

/-- Whether a source can be written to a path, once the directories on the way to it are created. -/
structure Admits (fs : FileSystem) (path : PathName) : Prop where
  short : path.IsShort
  named : path.names ≠ []
  way : ∀ place, IsAbove place (fs.placeOf path) → fs.IsPassable place
  free : fs.tree.entry? (fs.placeOf path) ≠ some .directory

theorem isAbove_placeOf {slashes name : String} {names outer : List String}
    (hpath : PathName.Descends ⟨slashes, name :: names⟩) (houter : outer <:+ names) :
    IsAbove (fs.placeOf ⟨slashes, outer⟩) (fs.placeOf ⟨slashes, name :: names⟩) := by
  have hdown : PathName.Descends ⟨slashes, outer⟩ :=
    fun h => hpath (List.mem_cons_of_mem _ (houter.mem h))
  have hstart : fs.start ⟨slashes, name :: names⟩ = fs.start ⟨slashes, outer⟩ := rfl
  rw [placeOf_of_descends fs hdown, placeOf_of_descends fs hpath, hstart]
  obtain ⟨inner, rfl⟩ := houter
  refine ⟨⟨name :: inner, by simp⟩, fun heq => ?_⟩
  have hlength := congrArg List.length heq
  simp only [List.length_append, List.length_cons] at hlength
  omega

theorem exists_writeSource_of_admits {text : Text} {bytes : List UInt8} (hpath : path.Descends)
    (hnul : path.hasNul = false) (hencoded : Text.Utf8.encode text = .ok bytes)
    (hadmits : fs.Admits path) :
    ∃ after, writeSource fs path text = (after, .ok (fs.resolve path)) := by
  obtain ⟨slashes, names⟩ := path
  cases names with
  | nil => exact absurd rfl hadmits.named
  | cons name outer =>
    have hparent : PathName.Descends ⟨slashes, outer⟩ := hpath.parent
    obtain ⟨middle, hmiddle, hdirectory⟩ := exists_haveDirectories hparent hadmits.short.parent
      fun shorter hshorter => hadmits.way _ (isAbove_placeOf hpath hshorter)
    have hadds := addsDirectories_haveDirectories slashes fs outer
    rw [hmiddle] at hadds
    have hplace := placeOf_congr hadds.here
    have htarget := target_of_descends hpath hadmits.short (by rwa [hplace])
    -- The directories that were created stand on the way and not at the place itself.
    have hfree : middle.tree.isDirectory (name :: middle.placeOf ⟨slashes, outer⟩) = false := by
      rw [(placeOf_of_target htarget).2, hplace, FileTree.isDirectory, beq_eq_false_iff_ne]
      cases hbefore : fs.tree.entry? (fs.placeOf ⟨slashes, name :: outer⟩) with
      | some entry =>
        rw [hadds.kept _ _ hbefore, ← hbefore]
        exact hadmits.free
      | none =>
        intro hnew
        obtain ⟨-, shorter, hshorter, heq⟩ := hadds.added _ hbefore (by simp [hnew])
        exact (isAbove_placeOf hpath hshorter).2 heq.symm
    refine ⟨middle.put name (middle.placeOf ⟨slashes, outer⟩) (.file bytes), ?_⟩
    rw [writeSource_eq_ok_iff]
    refine ⟨?_, hnul, middle, bytes, hmiddle, hencoded, ?_, ?_⟩
    · simp only [PathName.hasNul, List.any_cons, Bool.or_eq_false_iff] at hnul
      exact hnul.2
    · simp only [write, htarget, hfree, Bool.false_eq_true, if_false]
    · exact resolve_congr (by rw [put_here, hadds.here]) _

theorem admits_of_writeSource {after : FileSystem} {place : PathName} {text : Text}
    (hpath : path.Descends) (h : writeSource fs path text = (after, .ok place)) : fs.Admits path := by
  obtain ⟨bytes, -, honly, -⟩ := writesOnly_of_writeSource h
  have hread := (bytesOf_eq_ok_iff hpath).mp honly.read
  refine ⟨hread.1, ?_, ?_, honly.not_directory⟩
  · intro hnames
    have hplace : fs.placeOf path = fs.start path := by rw [placeOf_eq, hnames]; rfl
    exact honly.not_directory (hplace ▸ entry?_start fs path)
  · intro outer habove entry hentry
    have hkept := honly.kept outer entry habove.2 hentry
    rw [FileTree.entry?_of_isAbove (by simp [honly.written]) habove] at hkept
    exact (Option.some.inj hkept).symm

/-- When a source can be written to a descending path. -/
theorem exists_writeSource_iff {text : Text} (hpath : path.Descends) {place : PathName} :
    (∃ after, writeSource fs path text = (after, .ok place)) ↔
      path.hasNul = false ∧ (∃ bytes, Text.Utf8.encode text = .ok bytes) ∧ fs.Admits path ∧
        place = fs.resolve path := by
  constructor
  · rintro ⟨after, h⟩
    obtain ⟨bytes, hencoded, -, hplace⟩ := writesOnly_of_writeSource h
    obtain ⟨-, hnul, -⟩ := writeSource_eq_ok_iff.mp h
    exact ⟨hnul, ⟨bytes, hencoded⟩, admits_of_writeSource hpath h, hplace⟩
  · rintro ⟨hnul, ⟨bytes, hencoded⟩, hadmits, rfl⟩
    exact exists_writeSource_of_admits hpath hnul hencoded hadmits

/-! ## Trees -/

/-- What stands where after a file was written to a descending path: the file at its place, directories
above it, and elsewhere what stood there before. -/
theorem WritesOnly.entry?_eq {before after : FileSystem} {bytes : List UInt8}
    (h : WritesOnly before after path bytes) (hpath : path.Descends) (place : Location) :
    after.tree.entry? place =
      if place = before.placeOf path then some (.file bytes)
      else if IsAbove place (before.placeOf path) then some .directory
      else before.tree.entry? place := by
  split
  case isTrue hplace => rw [hplace, h.written]
  case isFalse hplace =>
    split
    case isTrue habove => exact FileTree.entry?_of_isAbove (by simp [h.written]) habove
    case isFalse hother =>
      cases hbefore : before.tree.entry? place with
      | some entry => exact h.kept place entry hplace hbefore
      | none =>
        -- What is new stands at the place or above it.
        rw [← Option.not_isSome_iff_eq_none]
        intro hsome
        rcases h.added place hbefore hsome with heq | ⟨-, outer, houter, rfl⟩
        · exact hplace heq
        · obtain ⟨slashes, names⟩ := path
          cases names with
          | nil => exact hplace (by rw [List.suffix_nil.mp houter])
          | cons name names => exact hother (isAbove_placeOf hpath houter)

end FileSystem

end OpenApiClient
