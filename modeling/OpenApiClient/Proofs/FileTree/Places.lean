import OpenApiClient.FileTree.Access

/-!
# Places of Paths

Where the names of a path lead. There are no links, so every path that can be followed leads to the
place that is found without looking at the tree, `..` taking the last name away. An entry that is put
into a directory stands at its place, and nothing changes elsewhere.

## Layers

- **Entries**: what stands in a tree after `put` (`entry?_put_self`, `entry?_put_of_ne`).
- **Following**: `follow_eq_ok` and `target_eq_ok`; paths still lead to their places in a larger tree
  (`follow_eq_ok_of_le`).
- **Refusals**: whether there is a file is refused for names that are too long only
  (`isFile_eq_error_iff`).
-/

namespace OpenApiClient

/-! ## Entries -/

namespace FileTree

variable {tree : FileTree} {name : String} {place : Location} {entry : Entry}

theorem entry?_put_self (hplace : tree.entry? place = some .directory)
    (hfree : tree.entry? (name :: place) ≠ some .directory) :
    FileTree.entry? (tree.put name place entry) (name :: place) = some entry := by
  rw [put, dif_pos ⟨hplace, hfree⟩]
  exact List.lookup_cons_self

theorem entry?_put_of_ne {other : Location} (hne : other ≠ name :: place) :
    FileTree.entry? (tree.put name place entry) other = tree.entry? other := by
  unfold put
  split
  · rw [FileTree.entry?, List.lookup_cons, beq_eq_false_iff_ne.mpr hne]
    rfl
  · rfl

end FileTree

namespace FileSystem

variable {fs : FileSystem} {path : PathName}

@[simp] theorem put_tree {name : String} {place : Location} {entry : Entry} :
    (fs.put name place entry).tree = fs.tree.put name place entry := rfl

@[simp] theorem put_here {name : String} {place : Location} {entry : Entry} :
    (fs.put name place entry).here = fs.here := rfl

/-! ## Following names -/

/-- The place that a name leads to from another one. -/
def step (name : String) (place : Location) : Location :=
  if name == ".." then place.tail else name :: place

/-- The place that a path names, found without looking at the tree. -/
def placeOf (fs : FileSystem) (path : PathName) : Location :=
  (fs.resolve path).names

theorem placeOf_eq (fs : FileSystem) (path : PathName) :
    fs.placeOf path = path.names.foldr step (fs.start path) := rfl

theorem start_congr {other : FileSystem} (hhere : other.here = fs.here) (path : PathName) :
    other.start path = fs.start path := by
  rw [start, start, hhere]

theorem resolve_congr {other : FileSystem} (hhere : other.here = fs.here) (path : PathName) :
    other.resolve path = fs.resolve path := by
  rw [resolve, resolve, start_congr hhere]

theorem placeOf_congr {other : FileSystem} (hhere : other.here = fs.here) (path : PathName) :
    other.placeOf path = fs.placeOf path := by
  rw [placeOf, placeOf, resolve_congr hhere]

/-- A name is followed from directories only, and not if it is too long. -/
theorem nameAt_eq_ok {place next : Location} {name : String} (h : fs.nameAt place name = .ok next) :
    fs.tree.entry? place = some .directory ∧ next = step name place := by
  unfold nameAt at h
  split at h
  case h_1 => contradiction
  case h_3 => contradiction
  case h_2 hdirectory =>
    refine ⟨hdirectory, ?_⟩
    rw [step]
    split at h
    case isTrue hup => rw [if_pos hup, Except.ok.inj h]
    case isFalse hdown =>
      split at h
      · contradiction
      · rw [if_neg hdown, Except.ok.inj h]

/-- One name more is followed from where the other ones lead, to something that stands there. -/
theorem follow_cons_eq_ok {start place : Location} {name : String} {outer : List String}
    (h : fs.follow start (name :: outer) = .ok place) :
    ∃ middle, fs.follow start outer = .ok middle ∧ fs.nameAt middle name = .ok place ∧
      (fs.tree.entry? place).isSome := by
  rw [follow] at h
  cases hmiddle : fs.follow start outer with
  | error fault => simp [hmiddle, bind, Except.bind] at h
  | ok middle =>
    cases hnext : fs.nameAt middle name with
    | error fault => simp [hmiddle, hnext, bind, Except.bind] at h
    | ok next =>
      simp only [hmiddle, hnext, bind, Except.bind] at h
      split at h
      case isTrue hsome =>
        obtain rfl := Except.ok.inj h
        exact ⟨middle, rfl, hnext, hsome⟩
      case isFalse => contradiction

theorem follow_eq_ok {start place : Location} {names : List String}
    (h : fs.follow start names = .ok place) : place = names.foldr step start := by
  induction names generalizing place with
  | nil => exact (Except.ok.inj h).symm
  | cons name outer ih =>
    obtain ⟨middle, houter, hname, -⟩ := follow_cons_eq_ok h
    rw [(nameAt_eq_ok hname).2, ih houter, List.foldr_cons]

/-- What a path names that may be yet to create: its other names are followed, and the last one can be
taken from where they lead. -/
theorem target_eq_ok {name : String} {place : Location}
    (h : fs.target path = .ok (some (name, place))) :
    ¬ pathLimit < path.text.utf8ByteSize ∧
      ∃ outer, path.names = name :: outer ∧ fs.follow (fs.start path) outer = .ok place ∧
        fs.nameAt place name = .ok (name :: place) := by
  unfold target at h
  split at h
  case isTrue => contradiction
  case isFalse hshort =>
    split at h
    case h_1 => simp at h
    case h_2 last outer hnames =>
      cases hplace : fs.follow (fs.start path) outer with
      | error fault => simp [hplace, bind, Except.bind] at h
      | ok inside =>
        cases hnext : fs.nameAt inside last with
        | error fault => simp [hplace, hnext, bind, Except.bind] at h
        | ok next =>
          simp only [hplace, hnext, bind, Except.bind, pure, Except.pure, Except.ok.injEq] at h
          split at h
          case isTrue => contradiction
          case isFalse hdown =>
            obtain ⟨rfl, rfl⟩ := Prod.mk.inj (Option.some.inj h)
            have hstep := (nameAt_eq_ok hnext).2
            rw [step, if_neg hdown] at hstep
            exact ⟨hshort, outer, hnames, hplace, hstep ▸ hnext⟩

/-- It is named in a directory, and there is the place of the path. -/
theorem placeOf_of_target {name : String} {place : Location}
    (h : fs.target path = .ok (some (name, place))) :
    fs.tree.entry? place = some .directory ∧ name :: place = fs.placeOf path := by
  obtain ⟨-, outer, hnames, houter, hname⟩ := target_eq_ok h
  obtain ⟨hdirectory, hstep⟩ := nameAt_eq_ok hname
  refine ⟨hdirectory, ?_⟩
  rw [placeOf_eq, hnames, List.foldr_cons, ← follow_eq_ok houter, hstep]

/-! ## Names that are too long -/

/-- Whether a path is too long, or leads on from a directory by a name that is too long. -/
def IsOverlong (fs : FileSystem) (path : PathName) : Prop :=
  pathLimit < path.text.utf8ByteSize ∨
    ∃ name outer place, name :: outer <:+ path.names ∧
      fs.follow (fs.start path) outer = .ok place ∧ fs.tree.entry? place = some .directory ∧
      name ≠ ".." ∧ nameLimit < name.utf8ByteSize

theorem nameAt_eq_nameTooLong_iff {place : Location} {name : String} :
    fs.nameAt place name = .error .nameTooLong ↔
      fs.tree.entry? place = some .directory ∧ name ≠ ".." ∧ nameLimit < name.utf8ByteSize := by
  unfold nameAt
  split
  case h_1 hnone => simp [hnone]
  case h_2 hdirectory =>
    rw [hdirectory]
    split
    case isTrue hup => simp_all
    case isFalse hdown =>
      split
      case isTrue hlong => simp_all
      case isFalse hshort => simp_all
  case h_3 entry hne hentry => simp_all

theorem follow_cons_eq_nameTooLong_iff {start : Location} {name : String} {outer : List String} :
    fs.follow start (name :: outer) = .error .nameTooLong ↔
      fs.follow start outer = .error .nameTooLong ∨
        ∃ place, fs.follow start outer = .ok place ∧ fs.nameAt place name = .error .nameTooLong := by
  rw [follow]
  cases fs.follow start outer with
  | error fault => simp [bind, Except.bind]
  | ok place =>
    cases hnext : fs.nameAt place name with
    | error fault => simp [hnext, bind, Except.bind]
    | ok next =>
      simp only [hnext, bind, Except.bind]
      split <;> simp [hnext]

/-- Following fails so at the first name that is too long, if all names before it lead on. -/
theorem follow_eq_nameTooLong_iff {start : Location} {names : List String} :
    fs.follow start names = .error .nameTooLong ↔
      ∃ name outer place, name :: outer <:+ names ∧ fs.follow start outer = .ok place ∧
        fs.tree.entry? place = some .directory ∧ name ≠ ".." ∧ nameLimit < name.utf8ByteSize := by
  induction names with
  | nil => simp [follow]
  | cons last rest ih =>
    rw [follow_cons_eq_nameTooLong_iff, ih]
    simp only [nameAt_eq_nameTooLong_iff, List.suffix_cons_iff, List.cons.injEq]
    constructor
    · rintro (⟨name, outer, place, hsuffix, hlong⟩ | ⟨place, hfollow, hlong⟩)
      · exact ⟨name, outer, place, .inr hsuffix, hlong⟩
      · exact ⟨last, rest, place, .inl ⟨rfl, rfl⟩, hfollow, hlong⟩
    · rintro ⟨name, outer, place, ⟨rfl, rfl⟩ | hsuffix, hlong⟩
      · exact .inr ⟨place, hlong⟩
      · exact .inl ⟨name, outer, place, hsuffix, hlong⟩

theorem entryOf_eq_nameTooLong_iff :
    fs.entryOf path = .error .nameTooLong ↔ fs.IsOverlong path := by
  have hlocate : fs.locate path = .error .nameTooLong ↔ fs.IsOverlong path := by
    rw [locate, IsOverlong, ← follow_eq_nameTooLong_iff]
    split
    case isTrue hlong => simp only [hlong, true_or]
    case isFalse hshort => simp only [hshort, false_or]
  rw [← hlocate, entryOf]
  cases fs.locate path with
  | error fault => simp [bind, Except.bind]
  | ok place =>
    simp only [bind, Except.bind]
    split <;> simp

/-- Whether a path leads to a file is refused for paths that are too long only. -/
theorem isFile_eq_error_iff {e : AccessError} :
    fs.isFile path = .error e ↔ fs.IsOverlong path ∧ e = ⟨.nameTooLong, some path⟩ := by
  rw [← entryOf_eq_nameTooLong_iff]
  rcases hentry : fs.entryOf path with (_ | _ | _ | _ | _ | _) | (_ | _ | _) <;>
    simp [isFile, hentry, eq_comm]

/-! ## Larger trees -/

/-- Whether all directories stay directories, and where something stands something stays. -/
structure Le (fs other : FileSystem) : Prop where
  directory : ∀ place, fs.tree.entry? place = some .directory →
    other.tree.entry? place = some .directory
  isSome : ∀ place, (fs.tree.entry? place).isSome → (other.tree.entry? place).isSome

theorem nameAt_eq_ok_of_le {other : FileSystem} (hle : fs.Le other) {place next : Location}
    {name : String} (h : fs.nameAt place name = .ok next) : other.nameAt place name = .ok next := by
  have hdirectory := (nameAt_eq_ok h).1
  unfold nameAt at h ⊢
  rw [hdirectory] at h
  rw [hle.directory place hdirectory]
  exact h

theorem follow_eq_ok_of_le {other : FileSystem} (hle : fs.Le other) {start place : Location}
    {names : List String} (h : fs.follow start names = .ok place) :
    other.follow start names = .ok place := by
  induction names generalizing place with
  | nil => exact h
  | cons name outer ih =>
    obtain ⟨middle, houter, hname, hsome⟩ := follow_cons_eq_ok h
    simp only [follow, ih houter, nameAt_eq_ok_of_le hle hname, bind, Except.bind,
      hle.isSome place hsome, if_true]

theorem target_eq_ok_of_le {other : FileSystem} (hle : fs.Le other) (hhere : other.here = fs.here)
    {name : String} {place : Location} (h : fs.target path = .ok (some (name, place))) :
    other.target path = .ok (some (name, place)) := by
  obtain ⟨hshort, outer, hnames, houter, hname⟩ := target_eq_ok h
  rw [target, if_neg hshort, hnames, start_congr hhere]
  simp only [follow_eq_ok_of_le hle houter, nameAt_eq_ok_of_le hle hname, bind, Except.bind, pure,
    Except.pure]
  -- The place is that of the name in another one, so the name does not go up.
  have hdown := (nameAt_eq_ok hname).2
  rw [step] at hdown
  split at hdown
  case isTrue => exact absurd (congrArg List.length hdown) (by simp; omega)
  case isFalse hup => rw [if_neg hup]

end FileSystem

end OpenApiClient
