import Mathlib.Data.List.Pairwise
import AetherHF.Daemon.Configuration

/-! The leaves of a configuration's document: their dotted names, and what a document holds
of each field and of the keying section while values are put into it. -/
namespace AetherHF.Settings

open Document (Apart)

/-! ### Dotted names -/

/-- A dotted name with one more part. -/
def dot (name part : Text) : Text := if name.isEmpty then part else name ++ '.' :: part

mutual

theorem leaves_eq (prefix_ : Text) : (document : Json) →
    leaves prefix_ document = document.paths.map fun leaf => (leaf.1.foldl dot prefix_, leaf.2)
  | .scalar _ => by simp [leaves, Document.paths]
  | .array _ => by simp [leaves, Document.paths]
  | .object members => by
    rw [leaves, Document.paths]
    exact leavesIn_eq prefix_ members

theorem leavesIn_eq (prefix_ : Text) : (members : List (Text × Json)) →
    leavesIn prefix_ members = (Document.pathsIn members).map fun leaf => (leaf.1.foldl dot prefix_, leaf.2)
  | [] => by rw [leavesIn, Document.pathsIn, List.map_nil]
  | (key, inner) :: rest => by
    rw [leavesIn, Document.pathsIn, List.map_append, List.map_map, ← leavesIn_eq prefix_ rest]
    congr 1
    exact leaves_eq (dot prefix_ key) inner

end

/-- How the fields lie: apart from each other and from the keying section, in the tables, and each where its name says. -/
theorem layout : ((["ptt".toList] :: Field.all.map Field.path).Pairwise Apart) ∧
    (∀ table ∈ Config.tables, (∀ field ∈ Field.all, Apart table field.path ∨ table <+: field.path ∧ table ≠ field.path) ∧
      (table = [] ∨ Apart table ["ptt".toList])) ∧
    ∀ field ∈ Field.all, field.path.foldl dot [] = field.key := by
  unfold Apart
  decide +kernel

namespace Field

theorem mem_all (field : Field) : field ∈ Field.all := Finset.mem_univ field

variable {field other : Field}

theorem apart (unlike : field ≠ other) : Apart field.path other.path := by
  have pairwise := (List.pairwise_cons.mp layout.1).2
  have : Std.Symm fun a b : Field => Apart a.path b.path := ⟨fun _ _ apart => ⟨apart.2, apart.1⟩⟩
  exact (List.pairwise_map.mp pairwise).forall field.mem_all other.mem_all unlike

theorem apart_ptt (field : Field) : Apart ["ptt".toList] field.path :=
  (List.pairwise_cons.mp layout.1).1 _ (List.mem_map_of_mem field.mem_all)

theorem dotted (field : Field) : field.path.foldl dot [] = field.key := layout.2.2 field field.mem_all

theorem key_injective (same : field.key = other.key) : field = other := by
  by_contra unlike
  have paths : field.path = other.path := congrArg (List.splitOn '.') same
  exact (apart unlike).1 (paths ▸ List.prefix_rfl)

end Field

theorem known_of_prefix {path : List Text} {field : Field} (before : path <+: field.path) : Config.known path = true := by
  have some_ : Field.all.any fun field => path.isPrefixOf field.path :=
    List.any_eq_true.mpr ⟨field, field.mem_all, List.isPrefixOf_iff_prefix.mpr before⟩
  rw [Config.known, some_, Bool.or_true]

theorem known_ptt : Config.known ["ptt".toList] = true := by simp [Config.known]

/-- The dotted name of a field of the keying section. -/
def pttKey (name : Text) : Text := "ptt".toList ++ '.' :: name

theorem pttKey_eq (name : Text) : pttKey name = ["ptt".toList, name].foldl dot [] := rfl

theorem splitOn_pttKey (name : Text) : (pttKey name).splitOn '.' = "ptt".toList :: name.splitOn '.' := by
  have none_ : '.' ∉ "ptt".toList := by decide
  exact List.splitOn_append_cons_self_of_not_mem none_ name

theorem Field.key_ne_pttKey (field : Field) (name : Text) : field.key ≠ pttKey name := by
  intro same
  have path : field.path = "ptt".toList :: name.splitOn '.' := (congrArg (List.splitOn '.') same).trans (splitOn_pttKey name)
  exact field.apart_ptt.1 (path ▸ List.cons_prefix_cons.mpr ⟨rfl, List.nil_prefix⟩)

theorem pttKey_injective {name other : Text} (same : pttKey name = pttKey other) : name = other := by
  have same : "ptt".toList ++ '.' :: name = "ptt".toList ++ '.' :: other := same
  exact (List.cons.inj (List.append_cancel_left same)).2

/-! ### The tables of a document -/

/-- A document whose tables are tables, with no member that is not known. -/
structure Shape (document : Json) : Prop where
  tables : ∀ table ∈ Config.tables, ∀ value, document.at_ table = some value → value.isTable = true
  known : ∀ table ∈ Config.tables, ∀ key value, document.at_ (table ++ [key]) = some value →
    Config.known (table ++ [key]) = true

theorem shape_empty : Shape (.object []) where
  tables table _ value is := by
    cases table with
    | nil =>
      cases is
      rfl
    | cons key rest => cases is
  known table _ key value is := by
    rw [Document.at_empty (by simp)] at is
    cases is

/-- A path that is in the tables, with known names on the way. -/
structure Lies (path : List Text) : Prop where
  tables : ∀ table ∈ Config.tables, Apart table path ∨ table <+: path ∧ table ≠ path
  known : ∀ table ∈ Config.tables, ∀ key, table ++ [key] <+: path → Config.known (table ++ [key]) = true

theorem Shape.set {document : Json} (shape : Shape document) {path : List Text} (lies : Lies path) (value : Json) :
    Shape (document.setPath path value) where
  tables table among found is := by
    rcases lies.tables table among with apart | ⟨before, unlike⟩
    · rw [Document.at_setPath_apart ⟨apart.2, apart.1⟩] at is
      exact shape.tables table among found is
    · obtain ⟨members, there, _⟩ := Document.setPath_table before unlike document value
      cases there.symm.trans is
      rfl
  known table among key found is := by
    rcases lies.tables table among with apart | ⟨before, unlike⟩
    · have apart' : Apart path (table ++ [key]) := by
        refine ⟨fun inside => ?_, fun inside => apart.1 ((List.prefix_append _ _).trans inside)⟩
        rcases List.prefix_concat_iff.mp inside with same | inside
        · exact apart.1 (same ▸ List.prefix_append _ _)
        · exact apart.2 inside
      rw [Document.at_setPath_apart apart'] at is
      exact shape.known table among key found is
    · obtain ⟨members, there, each⟩ := Document.setPath_table before unlike document value
      rw [Document.at_append, there, Option.bind_some, Document.at_cons] at is
      obtain ⟨inner, found', _⟩ := Option.bind_eq_some_iff.mp is
      rcases each _ (Keyed.mem_of_get? found') with onTheWay | ⟨inner', there'⟩
      · exact lies.known table among _ onTheWay
      · exact shape.known table among key inner' there'

theorem Shape.shaped {document : Json} (shape : Shape document) : Config.shaped document = true := by
  refine List.all_eq_true.mpr fun table among => ?_
  split
  · rfl
  · rename_i members is
    refine Bool.or_eq_true_iff.mpr (.inr (List.all_eq_true.mpr fun m member => ?_))
    obtain ⟨inner, found⟩ := Document.get?_isSome_of_mem member
    refine shape.known table among m.1 inner ?_
    rw [Document.at_append, is, Option.bind_some, Document.at_cons, Document.members, found]
    rfl
  · rename_i value other is
    have := shape.tables table among value is
    cases value with
    | object members => exact absurd rfl (other members)
    | scalar s => cases this
    | array items => cases this

theorem Field.lies (field : Field) : Lies field.path where
  tables table among := (layout.2.1 table among).1 field field.mem_all
  known _ _ _ before := known_of_prefix before

theorem lies_ptt (rest : List Text) : Lies ("ptt".toList :: rest) where
  tables table among := by
    rcases (layout.2.1 table among).2 with rfl | apart
    · exact .inr ⟨List.nil_prefix, (List.cons_ne_nil _ _).symm⟩
    · have head : ["ptt".toList] <+: "ptt".toList :: rest := List.cons_prefix_cons.mpr ⟨rfl, List.nil_prefix⟩
      refine .inl ⟨fun before => ?_, fun inside => apart.2 (head.trans inside)⟩
      rcases List.prefix_or_prefix_of_prefix before head with less | more
      · exact apart.1 less
      · exact apart.2 more
  known table among key before := by
    rcases (layout.2.1 table among).2 with rfl | apart
    · obtain ⟨rfl, _⟩ := List.cons_prefix_cons.mp before
      exact known_ptt
    · have head : ["ptt".toList] <+: "ptt".toList :: rest := List.cons_prefix_cons.mpr ⟨rfl, List.nil_prefix⟩
      have inside : table <+: "ptt".toList :: rest := (List.prefix_append _ _).trans before
      rcases List.prefix_or_prefix_of_prefix inside head with less | more
      · exact absurd less apart.1
      · exact absurd more apart.2

/-! ### What a document holds -/

/-- A keying section: scalars, in the order of their names. -/
structure Section_ (members : Keyed Text Json) : Prop where
  order : members.Pairwise fun a b => a.1 < b.1
  flat : ∀ m ∈ members, ∃ s, m.2 = .scalar s

theorem Section_.ordered {members : Keyed Text Json} (section_ : Section_ members) : (Document.object members).Ordered := by
  refine .object section_.order fun m member => ?_
  obtain ⟨s, is⟩ := section_.flat m member
  rw [is]
  exact .scalar s

theorem Section_.insert {members : Keyed Text Json} (section_ : Section_ members) (name : Text) (s : Scalar) :
    Section_ (Document.insert members name (.scalar s)) where
  order := Document.insert_ordered section_.order name (.scalar s)
  flat m member := by
    rcases Document.mem_insert member with before | rfl
    · exact section_.flat m before
    · exact ⟨s, rfl⟩

/-- A document that holds some values of the fields, and some keying section, and nothing else. -/
structure Holds (document : Json) (values : Field → Option Scalar) (ptt : Option (Keyed Text Json)) : Prop where
  ordered : document.Ordered
  field : ∀ field, document.at_ field.path = (values field).map .scalar
  keying : document.at_ ["ptt".toList] = ptt.map .object
  section_ : ∀ members ∈ ptt, Section_ members
  only : ∀ path value, document.at_ path = some value → value.isTable = false →
    (∃ field : Field, path = field.path) ∨ ∃ name, path = ["ptt".toList, name]
  shape : Shape document

theorem holds_empty : Holds (.object []) (fun _ => none) none where
  ordered := Document.ordered_empty
  field field := Document.at_empty fun none_ => field.apart_ptt.2 (none_ ▸ List.nil_prefix)
  keying := rfl
  section_ _ none_ := nomatch none_
  only path value is leaf := by
    cases path with
    | nil =>
      cases is
      cases leaf
    | cons key rest => cases is
  shape := shape_empty

section

variable {document : Json} {values : Field → Option Scalar} {ptt : Option (Keyed Text Json)}

/-- A field set. -/
theorem Holds.set (holds : Holds document values ptt) (field : Field) (s : Scalar) :
    Holds (document.setPath field.path (.scalar s)) (Function.update values field (some s)) ptt where
  ordered := holds.ordered.setPath field.path (.scalar s)
  field other := by
    by_cases same : other = field
    · subst same
      rw [Document.at_setPath_same, Function.update_self]
      rfl
    · rw [Document.at_setPath_apart (Field.apart fun h => same h.symm), Function.update_of_ne same]
      exact holds.field other
  keying := by
    rw [Document.at_setPath_apart ⟨field.apart_ptt.2, field.apart_ptt.1⟩]
    exact holds.keying
  section_ := holds.section_
  only path value is leaf := by
    rcases Document.at_setPath_leaf rfl is leaf with ⟨rfl, _⟩ | before
    · exact .inl ⟨field, rfl⟩
    · exact holds.only path value before leaf
  shape := holds.shape.set field.lies (.scalar s)

/-- A field of the keying section set. -/
theorem Holds.key (holds : Holds document values ptt) (name : Text) (s : Scalar) :
    Holds (document.setPath ["ptt".toList, name] (.scalar s)) values
      (some (Document.insert (ptt.getD []) name (.scalar s))) where
  ordered := holds.ordered.setPath _ (.scalar s)
  field field := by
    have apart : Apart ["ptt".toList, name] field.path := by
      have head : ["ptt".toList] <+: ["ptt".toList, name] := List.cons_prefix_cons.mpr ⟨rfl, List.nil_prefix⟩
      refine ⟨fun inside => field.apart_ptt.1 (head.trans inside), fun inside => ?_⟩
      rcases List.prefix_or_prefix_of_prefix inside head with less | more
      · exact field.apart_ptt.2 less
      · exact field.apart_ptt.1 more
    rw [Document.at_setPath_apart apart]
    exact holds.field field
  keying := by
    have there : (document.members.get? "ptt".toList).getD (.object []) = .object (ptt.getD []) := by
      have keying := holds.keying
      rw [Document.at_cons] at keying
      cases found : document.members.get? "ptt".toList with
      | none =>
        rw [found] at keying
        cases ptt with
        | none => rfl
        | some members => cases keying
      | some inner =>
        rw [found] at keying
        cases ptt with
        | none => cases keying
        | some members => exact Option.some.inj keying
    rw [Document.at_cons, Document.members_setPath, Document.get?_insert, if_pos rfl, there]
    rfl
  section_ members is := by
    cases is
    refine Section_.insert ?_ name s
    cases ptt with
    | none => exact ⟨.nil, fun _ none_ => absurd none_ List.not_mem_nil⟩
    | some members => exact holds.section_ members rfl
  only path value is leaf := by
    rcases Document.at_setPath_leaf rfl is leaf with ⟨rfl, _⟩ | before
    · exact .inr ⟨name, rfl⟩
    · exact holds.only path value before leaf
  shape := holds.shape.set (lies_ptt [name]) (.scalar s)

/-- The keying section put in. -/
theorem Holds.rekey (holds : Holds document values ptt) {members : Keyed Text Json} (section_ : Section_ members) :
    Holds (document.setPath ["ptt".toList] (.object members)) values (some members) where
  ordered := holds.ordered.setPath _ section_.ordered
  field field := by
    rw [Document.at_setPath_apart field.apart_ptt]
    exact holds.field field
  keying := Document.at_setPath_same _ _ _
  section_ _ is := by
    cases is
    exact section_
  only path value is leaf := by
    cases path with
    | nil =>
      cases is
      cases leaf
    | cons key rest =>
      rw [Document.at_cons, Document.members_setPath, Document.get?_insert] at is
      by_cases same : key = "ptt".toList
      · subst same
        rw [if_pos rfl, Option.bind_some] at is
        cases rest with
        | nil =>
          cases is
          cases leaf
        | cons name rest =>
          obtain ⟨inner, found, there⟩ := Option.bind_eq_some_iff.mp (Document.at_cons _ name rest ▸ is)
          obtain ⟨s, rfl⟩ : ∃ s, inner = .scalar s := section_.flat _ (Keyed.mem_of_get? found)
          obtain ⟨rfl, _⟩ := (Document.at_leaf rfl).mp there
          exact .inr ⟨name, rfl⟩
      · rw [if_neg same] at is
        exact holds.only (key :: rest) value is leaf
  shape := holds.shape.set (lies_ptt []) (.object members)

/-- The leaves of the document are what it holds. -/
theorem Holds.mem_leaves (holds : Holds document values ptt) {key : Text} {value : Json} :
    (key, value) ∈ leaves [] document ↔ (∃ field s, values field = some s ∧ key = field.key ∧ value = .scalar s) ∨
      ∃ members ∈ ptt, ∃ m ∈ members, key = pttKey m.1 ∧ value = m.2 := by
  rw [leaves_eq, List.mem_map]
  constructor
  · rintro ⟨⟨path, found⟩, among, is⟩
    cases is
    obtain ⟨there, leaf⟩ := holds.ordered.mem_paths.mp among
    rcases holds.only path found there leaf with ⟨field, rfl⟩ | ⟨name, rfl⟩
    · rw [holds.field field] at there
      obtain ⟨s, is, rfl⟩ := Option.map_eq_some_iff.mp there
      exact .inl ⟨field, s, is, field.dotted, rfl⟩
    · rw [← List.singleton_append, Document.at_append, holds.keying] at there
      cases ptt with
      | none => cases there
      | some members =>
        obtain ⟨inner, member, same⟩ := Option.bind_eq_some_iff.mp (Document.at_cons _ name [] ▸ there)
        cases same
        exact .inr ⟨members, rfl, _, Keyed.mem_of_get? member, rfl, rfl⟩
  · rintro (⟨field, s, is, rfl, rfl⟩ | ⟨members, rfl, m, member, rfl, rfl⟩)
    · refine ⟨(field.path, .scalar s), holds.ordered.mem_paths.mpr ⟨?_, rfl⟩, by rw [field.dotted]⟩
      rw [holds.field field, is]
      rfl
    · obtain ⟨s, scalar⟩ := (holds.section_ members rfl).flat m member
      refine ⟨(["ptt".toList, m.1], m.2), holds.ordered.mem_paths.mpr ⟨?_, scalar ▸ rfl⟩, rfl⟩
      rw [← List.singleton_append, Document.at_append, holds.keying, Option.map_some, Option.bind_some, Document.at_cons,
        Document.members, Document.get?_of_mem (holds.section_ members rfl).order member]
      rfl

/-- No name is there twice. -/
theorem Holds.leaves_nodup (holds : Holds document values ptt) : ((leaves [] document).map Prod.fst).Nodup := by
  have names : (leaves [] document).map Prod.fst = (document.paths.map Prod.fst).map (List.foldl dot []) := by
    rw [leaves_eq, List.map_map, List.map_map]
    rfl
  rw [names]
  refine holds.ordered.paths_nodup.map_on fun path among path' among' same => ?_
  have named {path : List Text} (among : path ∈ document.paths.map Prod.fst) :
      (∃ field : Field, path = field.path) ∨ ∃ name, path = ["ptt".toList, name] := by
    obtain ⟨⟨path, value⟩, inside, rfl⟩ := List.mem_map.mp among
    obtain ⟨there, leaf⟩ := holds.ordered.mem_paths.mp inside
    exact holds.only path value there leaf
  rcases named among with ⟨field, rfl⟩ | ⟨name, rfl⟩
  · rw [field.dotted] at same
    rcases named among' with ⟨field', rfl⟩ | ⟨name', rfl⟩
    · rw [field'.dotted] at same
      rw [Field.key_injective same]
    · exact absurd same (field.key_ne_pttKey name')
  · rcases named among' with ⟨field', rfl⟩ | ⟨name', rfl⟩
    · rw [field'.dotted] at same
      exact absurd same.symm (field'.key_ne_pttKey name)
    · rw [pttKey_injective same]

/-- The fields of a list set. -/
theorem Holds.foldl (holds : Holds document values ptt) (fields : List Field) (scalars : Field → Scalar) :
    Holds (fields.foldl (fun document field => document.setPath field.path (.scalar (scalars field))) document)
      (fun field => if field ∈ fields then some (scalars field) else values field) ptt := by
  induction fields generalizing document values with
  | nil => simpa using holds
  | cons first rest ih =>
    have next := ih (holds.set first (scalars first))
    have same : (fun field => if field ∈ rest then some (scalars field) else Function.update values first (some (scalars first)) field) =
        fun field => if field ∈ first :: rest then some (scalars field) else values field := by
      funext field
      by_cases here : field = first
      · simp [here]
      · simp [here]
    rw [List.foldl_cons, ← same]
    exact next

theorem Holds.setFields (holds : Holds document values ptt) (scalars : Field → Scalar) :
    Holds (Config.setFields document scalars) (fun field => some (scalars field)) ptt := by
  have all := holds.foldl Field.all scalars
  simp only [Field.mem_all, if_true] at all
  exact all

/-- What is read from a document that holds every field. -/
theorem Holds.fromValue {scalars : Field → Scalar} {members : Keyed Text Json} {config : Config}
    (holds : Holds document (fun field => some (scalars field)) (some members)) :
    Config.fromValue document = some config ↔
      (∀ field, field.spec.kind.decode (scalars field) = some (config.value field)) ∧
      PttConfig.decode members = some config.ptt := by
  have reads (field : Field) : Config.read document field = field.spec.kind.decode (scalars field) := by
    rw [Config.read, holds.field field]
    rfl
  have keying : Config.readPtt document = PttConfig.decode members := by
    rw [Config.readPtt, holds.keying]
    rfl
  rw [Config.fromValue, ← keying]
  constructor
  · intro is
    split at is
    · obtain ⟨ptt, there, rfl⟩ := Option.map_eq_some_iff.mp is
      exact ⟨fun field => by rw [← reads, Option.some_get], there⟩
    · cases is
  · rintro ⟨each, there⟩
    have some_ : ∀ field, (Config.read document field).isSome = true := fun field => by rw [reads, each]; rfl
    rw [dif_pos ⟨holds.shape.shaped, some_⟩, there]
    cases config
    refine congrArg some (congrArg (Config.mk · _) (funext fun field => ?_))
    exact Option.get_of_eq_some _ ((reads field).trans (each field))

end

/-! ### A configuration's document -/

theorem PttConfig.section_ (ptt : PttConfig) : Section_ ptt.members where
  order := by
    refine List.pairwise_map.mp (show (ptt.members.map Prod.fst).Pairwise (· < ·) from ?_)
    cases ptt with
    | none =>
      show ["kind".toList].Pairwise (· < ·)
      decide +kernel
    | serial port line =>
      show ["kind".toList, "line".toList, "port".toList].Pairwise (· < ·)
      decide +kernel
    | rigctld address =>
      show ["address".toList, "kind".toList].Pairwise (· < ·)
      decide +kernel
    | flrig address =>
      show ["address".toList, "kind".toList].Pairwise (· < ·)
      decide +kernel
    | cat port protocol baud civAddress source =>
      show ["baud".toList, "civ_address".toList, "kind".toList, "port".toList, "protocol".toList, "source".toList].Pairwise (· < ·)
      decide +kernel
    | cm108 device gpio =>
      show ["device".toList, "gpio".toList, "kind".toList].Pairwise (· < ·)
      decide +kernel
    | host leadMs =>
      show ["kind".toList, "lead_ms".toList].Pairwise (· < ·)
      decide +kernel
  flat m member := by
    have each : ∀ m ∈ ptt.members, ∃ s, m.2 = .scalar s := by
      cases ptt <;> simp [members, PttConfig.tag, PttConfig.member]
    exact each m member

/-- A configuration's document holds its values and its keying section. -/
theorem Config.holds (config : Config) :
    Holds config.toValue (fun field => some (config.leaf field)) (some config.ptt.members) :=
  (holds_empty.setFields config.leaf).rekey config.ptt.section_

end AetherHF.Settings
