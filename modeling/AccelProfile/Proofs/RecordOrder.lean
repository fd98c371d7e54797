import Mathlib.Data.List.Perm.Basic
import AccelProfile.Json.Tagged

/-!
# Records in any order

A record is read from the members of an object by their names. What is looked at on the way does
not depend on the order of the members: each has a name, no field comes twice, and the value of each
field can stand in it. A member that is no field is passed over. So if a record can be read from
some members, it is the same one that is read from them in any other order, among further members
that are no fields.

With a tag it is the same once more. The tag is the one member of its name, wherever it stands, and
all the others are set aside, which they can be on their own.
-/

namespace AccelProfile

/-- The members of one object are those of another one in any order, with further ones among them
that have none of some names. -/
def Rearranged (names : List String) (members others : List (Option String × Scan)) : Prop :=
  ∃ extras, others.Perm (members ++ extras) ∧
    ∀ extra ∈ extras, ∃ name, extra.1 = some name ∧ name ∉ names

namespace Fields

variable {α β : Type}

/-! ## What is looked at -/

/-- No field has this name. -/
def Foreign (known : List Field) (name? : Option String) : Prop :=
  ∀ field ∈ known, name? ≠ some field.name

theorem find?_eq_none_iff (known : List Field) (name : String) :
    known.find? (·.name = name) = none ↔ Foreign known (some name) := by
  rw [List.find?_eq_none]
  exact forall₂_congr fun field _ => by simp [eq_comm]

theorem not_foreign_of_find? {known : List Field} {name : String} {field : Field}
    (isField : known.find? (·.name = name) = some field) : ¬ Foreign known (some name) := by
  rw [← find?_eq_none_iff, isField]
  exact Option.some_ne_none field

/-- What the members of an object have to be like for a record to be read from them, where some
names were seen before. -/
structure Passes (mode : Mode) (known : List Field) (seen : List String)
    (members : List (Option String × Scan)) : Prop where
  named : ∀ member ∈ members, member.1 ≠ none
  fresh : ∀ member ∈ members, ∀ name ∈ seen, member.1 = some name → Foreign known member.1
  /-- No field comes twice. -/
  once : members.Pairwise fun member other => member.1 = other.1 → Foreign known member.1
  /-- The value of each field can stand in it. -/
  fits : ∀ member ∈ members, ∀ name field, member.1 = some name →
    known.find? (·.name = name) = some field → field.check mode member.2 = .ok ()

section Passes

variable {mode : Mode} {known : List Field} {seen : List String} {name : String} {value : Scan}
  {others : List (Option String × Scan)}

/-- A member that is no field makes no difference. -/
theorem passes_cons_foreign (foreign : Foreign known (some name)) :
    Passes mode known seen ((some name, value) :: others) ↔ Passes mode known seen others := by
  have noField := (find?_eq_none_iff known name).2 foreign
  constructor
  · rintro ⟨named, fresh, once, fits⟩
    exact ⟨fun member inside => named member (List.mem_cons_of_mem _ inside),
      fun member inside => fresh member (List.mem_cons_of_mem _ inside), once.of_cons,
      fun member inside => fits member (List.mem_cons_of_mem _ inside)⟩
  · rintro ⟨named, fresh, once, fits⟩
    refine ⟨?_, ?_, List.pairwise_cons.2 ⟨fun _ _ _ => foreign, once⟩, ?_⟩
    · exact List.forall_mem_cons.2 ⟨Option.some_ne_none name, named⟩
    · exact List.forall_mem_cons.2 ⟨fun _ _ _ => foreign, fresh⟩
    · refine List.forall_mem_cons.2 ⟨fun other field isName isField => ?_, fits⟩
      cases isName
      rw [noField] at isField
      cases isField

/-- A member that is a field has to be the first one of its name, and its value has to fit. -/
theorem passes_cons_known {field : Field} (isField : known.find? (·.name = name) = some field) :
    Passes mode known seen ((some name, value) :: others) ↔
      name ∉ seen ∧ field.check mode value = .ok () ∧ Passes mode known (name :: seen) others := by
  have isKnown := not_foreign_of_find? isField
  constructor
  · rintro ⟨named, fresh, once, fits⟩
    obtain ⟨first, once⟩ := List.pairwise_cons.1 once
    refine ⟨fun again => isKnown (fresh _ List.mem_cons_self name again rfl),
      fits _ List.mem_cons_self name field rfl isField, ?_, ?_, once, ?_⟩
    · exact fun member inside => named member (List.mem_cons_of_mem _ inside)
    · intro member inside other again isName
      rcases List.mem_cons.1 again with rfl | again
      · exact absurd (first member inside isName.symm) isKnown
      · exact fresh member (List.mem_cons_of_mem _ inside) other again isName
    · exact fun member inside => fits member (List.mem_cons_of_mem _ inside)
  · rintro ⟨unseen, fit, named, fresh, once, fits⟩
    refine ⟨?_, ?_, List.pairwise_cons.2 ⟨fun member inside same => ?_, once⟩, ?_⟩
    · exact List.forall_mem_cons.2 ⟨Option.some_ne_none name, named⟩
    · refine List.forall_mem_cons.2 ⟨fun other again isName => ?_, fun member inside other again =>
        fresh member inside other (List.mem_cons_of_mem _ again)⟩
      cases isName
      exact absurd again unseen
    · exact same ▸ fresh member inside name List.mem_cons_self same.symm
    · refine List.forall_mem_cons.2 ⟨fun other found isName isFound => ?_, fits⟩
      cases isName
      rw [isField] at isFound
      cases isFound
      exact fit

end Passes

/-- The members of an object are passed exactly if they are like this. -/
theorem checkMembers_eq_ok_iff {mode : Mode} {known : List Field} {seen : List String}
    {members : List (Option String × Scan)} :
    checkMembers mode known seen members = .ok () ↔ Passes mode known seen members := by
  induction members generalizing seen with
  | nil =>
    refine ⟨fun _ => ?_, fun _ => rfl⟩
    constructor <;> simp
  | cons member others ih =>
    obtain ⟨name?, value⟩ := member
    cases name? with
    | none =>
      simp only [checkMembers, reduceCtorEq, false_iff]
      exact fun passes => passes.named (none, value) List.mem_cons_self rfl
    | some name =>
      rw [checkMembers]
      cases isField : known.find? (·.name = name) with
      | none => rw [passes_cons_foreign ((find?_eq_none_iff known name).1 isField), ← ih]
      | some field =>
        rw [passes_cons_known isField, ← ih]
        dsimp only
        split
        · next again => simp [again]
        · next unseen =>
          cases field.check mode value with
          | error fault => simp [bind, Except.bind]
          | ok _ => simp [bind, Except.bind, unseen]

/-! ## Other orders -/

/-- In a list in which a key comes once, its value is the one it stands with. -/
theorem lookup_eq_some_iff_mem {κ ν : Type} [BEq κ] [LawfulBEq κ] {key : κ} {value : ν}
    {members : List (κ × ν)}
    (once : members.Pairwise fun member other => member.1 = other.1 → member.1 ≠ key) :
    members.lookup key = some value ↔ (key, value) ∈ members := by
  induction members with
  | nil => simp
  | cons member others ih =>
    obtain ⟨name, found⟩ := member
    obtain ⟨first, once⟩ := List.pairwise_cons.1 once
    rw [List.lookup_cons, List.mem_cons, Prod.mk.injEq]
    by_cases same : key = name
    · subst same
      have notLater : (key, value) ∉ others := fun later => first (key, value) later rfl rfl
      simp [notLater, eq_comm]
    · have differs : (key == name) = false := by simpa using same
      simp [differs, same, ih once]

section Rearranged

variable {mode : Mode} {known : List Field} {members others : List (Option String × Scan)}

theorem foreign_of_notMem {name : String} (unknown : name ∉ known.map Field.name) :
    Foreign known (some name) := by
  rintro field inside same
  exact unknown (List.mem_map.2 ⟨field, inside, (Option.some.inj same).symm⟩)

theorem Passes.rearranged (passes : Passes mode known [] members)
    (moved : Rearranged (known.map Field.name) members others) : Passes mode known [] others := by
  obtain ⟨extras, permuted, foreign⟩ := moved
  have extraForeign : ∀ extra ∈ extras, Foreign known extra.1 := by
    intro extra inside
    obtain ⟨name, isName, unknown⟩ := foreign extra inside
    exact isName ▸ foreign_of_notMem unknown
  refine ⟨fun member inside => ?_, fun _ _ _ again => absurd again List.not_mem_nil, ?_, ?_⟩
  · rcases List.mem_append.1 (permuted.subset inside) with old | extra
    · exact passes.named member old
    · obtain ⟨name, isName, -⟩ := foreign member extra
      exact isName ▸ Option.some_ne_none name
  · refine (permuted.pairwise_iff fun once same => same ▸ once same.symm).2
      (List.pairwise_append.2 ⟨passes.once, ?_, ?_⟩)
    · exact List.pairwise_of_forall_mem_list fun extra inside _ _ _ => extraForeign extra inside
    · exact fun member _ extra inside same => same ▸ extraForeign extra inside
  · intro member inside name field isName isField
    rcases List.mem_append.1 (permuted.subset inside) with old | extra
    · exact passes.fits member old name field isName isField
    · exact absurd (isName ▸ extraForeign member extra) (not_foreign_of_find? isField)

/-- The values of the fields are found where they were. -/
theorem Passes.lookup_rearranged (passes : Passes mode known [] members)
    (moved : Rearranged (known.map Field.name) members others) {field : Field}
    (isKnown : field ∈ known) :
    others.lookup (some field.name) = members.lookup (some field.name) := by
  have once {list : List (Option String × Scan)} (passes : Passes mode known [] list) :
      list.Pairwise fun member other => member.1 = other.1 → member.1 ≠ some field.name :=
    passes.once.imp fun foreign same => foreign same field isKnown
  ext value
  rw [lookup_eq_some_iff_mem (once (passes.rearranged moved)), lookup_eq_some_iff_mem (once passes)]
  obtain ⟨extras, permuted, foreign⟩ := moved
  have noExtra : (some field.name, value) ∉ extras := by
    intro extra
    obtain ⟨name, isName, unknown⟩ := foreign _ extra
    exact unknown (List.mem_map.2 ⟨field, isKnown, Option.some.inj isName⟩)
  rw [permuted.mem_iff, List.mem_append, or_iff_left noExtra]

end Rearranged

/-! ## Records -/

/-- A record is built from what its own fields look up. -/
def Local (fields : Fields α) : Prop :=
  ∀ mode find other, (∀ field ∈ fields.known, find field.name = other field.name) →
    fields.build mode find = fields.build mode other

theorem local_required (name : String) (decode : Decoder α) : (required name decode).Local := by
  intro mode find other same
  have sameName : find name = other name := same _ List.mem_cons_self
  simp only [required, sameName]

theorem local_optional (name : String) (decode : Decoder α) (absent : α) :
    (optional name decode absent).Local := by
  intro mode find other same
  have sameName : find name = other name := same _ List.mem_cons_self
  simp only [optional, sameName]

theorem Local.map {fields : Fields α} (isLocal : fields.Local) (function : α → β) :
    (function <$> fields).Local := by
  intro mode find other same
  exact congrArg (Except.map function) (isLocal mode find other same)

theorem Local.seq {functions : Fields (α → β)} {arguments : Fields α}
    (isLocal : functions.Local) (argumentsLocal : arguments.Local) :
    (functions <*> arguments).Local := by
  intro mode find other same
  have sameFunction := isLocal mode find other fun field inside =>
    same field (List.mem_append_left _ inside)
  have sameArgument := argumentsLocal mode find other fun field inside =>
    same field (List.mem_append_right _ inside)
  change (functions.build mode find >>= fun function => arguments.build mode find >>=
    fun argument => pure (function argument)) = (functions.build mode other >>= fun function =>
      arguments.build mode other >>= fun argument => pure (function argument))
  rw [sameFunction, sameArgument]

/-- A record that is read from some members is read from them in any other order, and among further
ones that are no fields. -/
theorem Local.decoder_rearranged {fields : Fields α} (isLocal : fields.Local) {mode : Mode}
    {members others : List (Option String × Scan)} {value : α}
    (moved : Rearranged (fields.known.map Field.name) members others)
    (isRecord : fields.decoder mode (.obj members true) = .ok value) :
    fields.decoder mode (.obj others true) = .ok value := by
  change fields.readObject mode members true = .ok value at isRecord
  change fields.readObject mode others true = .ok value
  rw [readObject] at isRecord ⊢
  cases checked : checkMembers mode fields.known [] members with
  | error fault =>
    rw [checked] at isRecord
    cases isRecord
  | ok _ =>
    have passes := checkMembers_eq_ok_iff.1 checked
    rw [checked] at isRecord
    rw [checkMembers_eq_ok_iff.2 (passes.rearranged moved)]
    have sameBuild : fields.build mode (fun name => others.lookup (some name)) =
        fields.build mode fun name => members.lookup (some name) :=
      isLocal mode _ _ fun field inside => passes.lookup_rearranged moved inside
    exact sameBuild.trans isRecord

end Fields

namespace Tagged

section

variable {κ : Type} {tagName : String} {kind : String → Except ReadError κ}

/-! ## Tags -/

/-- A member that is set aside when the tag is looked for. -/
def SetAside (tagName : String) (member : Option String × Scan) : Prop :=
  ∃ name, member.1 = some name ∧ name ≠ tagName ∧ isReadable member.2 = true

/-- A member is set aside, or it is the tag, which was not found before. -/
theorem gather_cons_eq_ok_iff {tag found : Option κ} {member : Option String × Scan}
    {others content : List (Option String × Scan)} :
    gather tagName kind tag (member :: others) = .ok (found, content) ↔
      (SetAside tagName member ∧ ∃ rest, content = member :: rest ∧
        gather tagName kind tag others = .ok (found, rest)) ∨
      ∃ value first, member = (some tagName, value) ∧ tag = none ∧
        readTag kind value = .ok first ∧
        gather tagName kind (some first) others = .ok (found, content) := by
  obtain ⟨name?, value⟩ := member
  cases name? with
  | none => simp [gather, SetAside]
  | some name =>
    rw [gather.eq_def]
    dsimp only
    by_cases isTag : name = tagName
    · subst isTag
      cases tag with
      | some earlier => simp [SetAside]
      | none =>
        cases isKind : readTag kind value with
        | error fault => simp [SetAside, isKind, bind, Except.bind]
        | ok first => simp [SetAside, isKind, bind, Except.bind]
    · rw [if_neg isTag]
      by_cases readable : isReadable value = true
      · rw [if_pos readable]
        cases gather tagName kind tag others with
        | error fault => simp [bind, Except.bind, isTag]
        | ok rest =>
          simp [bind, Except.bind, pure, Except.pure, SetAside, Ne.symm isTag, readable, eq_comm,
            and_comm, Prod.ext_iff]
      · rw [if_neg readable]
        simp [SetAside, isTag, readable]

/-- Behind the tag all members are set aside. -/
theorem gather_some_eq_ok_iff {tag : κ} {found : Option κ}
    {members content : List (Option String × Scan)} :
    gather tagName kind (some tag) members = .ok (found, content) ↔
      found = some tag ∧ content = members ∧ ∀ member ∈ members, SetAside tagName member := by
  induction members generalizing content with
  | nil => simp [gather, eq_comm]
  | cons member others ih =>
    rw [gather_cons_eq_ok_iff]
    constructor
    · rintro (⟨aside, rest, rfl, gathered⟩ | ⟨_, _, _, isNone, _⟩)
      · obtain ⟨rfl, rfl, all⟩ := ih.1 gathered
        exact ⟨rfl, rfl, List.forall_mem_cons.2 ⟨aside, all⟩⟩
      · cases isNone
    · rintro ⟨rfl, rfl, all⟩
      obtain ⟨aside, all⟩ := List.forall_mem_cons.1 all
      exact .inl ⟨aside, others, rfl, ih.2 ⟨rfl, rfl, all⟩⟩

/-- One member is the tag, and all others are set aside. -/
theorem gather_none_eq_ok_iff {tag : κ} {members content : List (Option String × Scan)} :
    gather tagName kind none members = .ok (some tag, content) ↔
      ∃ before value behind, members = before ++ (some tagName, value) :: behind ∧
        content = before ++ behind ∧ readTag kind value = .ok tag ∧
        ∀ member ∈ content, SetAside tagName member := by
  induction members generalizing content with
  | nil => simp [gather]
  | cons member others ih =>
    rw [gather_cons_eq_ok_iff]
    constructor
    · rintro (⟨aside, rest, rfl, gathered⟩ | ⟨value, first, rfl, -, isKind, gathered⟩)
      · obtain ⟨before, value, behind, rfl, rfl, isKind, all⟩ := ih.1 gathered
        exact ⟨member :: before, value, behind, rfl, rfl, isKind,
          List.forall_mem_cons.2 ⟨aside, all⟩⟩
      · obtain ⟨same, rfl, all⟩ := gather_some_eq_ok_iff.1 gathered
        cases same
        exact ⟨[], value, content, rfl, rfl, isKind, all⟩
    · rintro ⟨before, value, behind, isWhole, rfl, isKind, all⟩
      cases before with
      | nil =>
        cases isWhole
        exact .inr ⟨value, tag, rfl, rfl, isKind, gather_some_eq_ok_iff.2 ⟨rfl, rfl, all⟩⟩
      | cons first before =>
        cases isWhole
        obtain ⟨aside, all⟩ := List.forall_mem_cons.1 all
        exact .inl ⟨aside, before ++ behind, rfl,
          ih.2 ⟨before, value, behind, rfl, rfl, isKind, all⟩⟩

theorem split_obj_eq_ok_iff {tag : κ} {members : List (Option String × Scan)} {content : Scan} :
    split tagName kind (.obj members true) = .ok (tag, content) ↔
      ∃ before value behind, members = before ++ (some tagName, value) :: behind ∧
        content = .obj (before ++ behind) true ∧ readTag kind value = .ok tag ∧
        ∀ member ∈ before ++ behind, SetAside tagName member := by
  have gathered : split tagName kind (.obj members true) = .ok (tag, content) ↔
      ∃ rest, gather tagName kind none members = .ok (some tag, rest) ∧
        content = .obj rest true := by
    rw [split]
    cases gather tagName kind none members with
    | error fault => simp [bind, Except.bind]
    | ok found =>
      obtain ⟨_ | first, rest⟩ := found
      · simp [bind, Except.bind]
      · simp [bind, Except.bind, eq_comm, and_comm]
  rw [gathered]
  constructor
  · rintro ⟨rest, isGathered, rfl⟩
    obtain ⟨before, value, behind, rfl, rfl, found⟩ := gather_none_eq_ok_iff.1 isGathered
    exact ⟨before, value, behind, rfl, rfl, found⟩
  · rintro ⟨before, value, behind, rfl, rfl, found⟩
    exact ⟨_, gather_none_eq_ok_iff.2 ⟨before, value, behind, rfl, rfl, found⟩, rfl⟩

/-- The tag may stand anywhere, among further members that can be set aside. -/
theorem split_rearranged {tag : κ} {members extras others : List (Option String × Scan)}
    {content : Scan} (isSplit : split tagName kind (.obj members true) = .ok (tag, content))
    (permuted : others.Perm (members ++ extras))
    (aside : ∀ extra ∈ extras, SetAside tagName extra) :
    ∃ kept moved, content = .obj kept true ∧ moved.Perm (kept ++ extras) ∧
      split tagName kind (.obj others true) = .ok (tag, .obj moved true) := by
  obtain ⟨before, value, behind, rfl, rfl, isKind, keptAside⟩ := split_obj_eq_ok_iff.1 isSplit
  have tagFirst : others.Perm ((some tagName, value) :: (before ++ behind ++ extras)) :=
    permuted.trans (List.perm_middle.append_right extras)
  obtain ⟨newBefore, newBehind, rfl⟩ := List.append_of_mem (tagFirst.mem_iff.2 List.mem_cons_self)
  have isMoved : (newBefore ++ newBehind).Perm (before ++ behind ++ extras) :=
    (List.perm_middle.symm.trans tagFirst).cons_inv
  refine ⟨before ++ behind, newBefore ++ newBehind, rfl, isMoved, split_obj_eq_ok_iff.2
    ⟨newBefore, value, newBehind, rfl, rfl, isKind, fun member inside => ?_⟩⟩
  exact (List.mem_append.1 (isMoved.subset inside)).elim (keptAside member) (aside member)

end

end Tagged

end AccelProfile
