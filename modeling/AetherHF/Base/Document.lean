import Mathlib.Data.List.Nodup
import Mathlib.Order.Lattice
import AetherHF.Base.Keyed

/-! Documents: scalars, and arrays and tables of documents, a table's members in the order
of their names. Where a path leads, what setting it does, and the leaves. -/
namespace AetherHF

inductive Document (κ σ : Type) where
  | scalar (value : σ)
  | array (items : List (Document κ σ))
  | object (members : List (κ × Document κ σ))

namespace Document

variable {κ σ τ : Type}

/-- A table's members; nothing else has any. -/
def members : Document κ σ → Keyed κ (Document κ σ)
  | .object members => members
  | _ => []

def isTable : Document κ σ → Bool
  | .object _ => true
  | _ => false

mutual

/-- What is not a table, with the path to it. -/
def paths : Document κ σ → List (List κ × Document κ σ)
  | .object members => pathsIn members
  | other => [([], other)]

def pathsIn : List (κ × Document κ σ) → List (List κ × Document κ σ)
  | [] => []
  | (key, inner) :: rest => (paths inner).map (fun leaf => (key :: leaf.1, leaf.2)) ++ pathsIn rest

end

mutual

def map (f : σ → τ) : Document κ σ → Document κ τ
  | .scalar value => .scalar (f value)
  | .array items => .array (mapItems f items)
  | .object members => .object (mapMembers f members)

def mapItems (f : σ → τ) : List (Document κ σ) → List (Document κ τ)
  | [] => []
  | item :: rest => map f item :: mapItems f rest

def mapMembers (f : σ → τ) : List (κ × Document κ σ) → List (κ × Document κ τ)
  | [] => []
  | (key, inner) :: rest => (key, map f inner) :: mapMembers f rest

end

mutual

/-- How far arrays and tables are nested. -/
def depth : Document κ σ → Nat
  | .scalar _ => 0
  | .array items => depthItems items + 1
  | .object members => depthMembers members + 1

def depthItems : List (Document κ σ) → Nat
  | [] => 0
  | item :: rest => max (depth item) (depthItems rest)

def depthMembers : List (κ × Document κ σ) → Nat
  | [] => 0
  | (_, inner) :: rest => max (depth inner) (depthMembers rest)

end

section

variable [DecidableEq κ] [DecidableEq σ]

mutual

def decEq : (a b : Document κ σ) → Decidable (a = b)
  | .scalar v, .scalar w => decidable_of_iff (v = w) (by simp)
  | .array xs, .array ys =>
    have := decEqItems xs ys
    decidable_of_iff (xs = ys) (by simp)
  | .object xs, .object ys =>
    have := decEqMembers xs ys
    decidable_of_iff (xs = ys) (by simp)
  | .scalar _, .array _ | .scalar _, .object _ | .array _, .scalar _ | .array _, .object _ | .object _, .scalar _
  | .object _, .array _ => .isFalse (by simp)

def decEqItems : (xs ys : List (Document κ σ)) → Decidable (xs = ys)
  | [], [] => .isTrue rfl
  | x :: xs, y :: ys =>
    have := decEq x y
    have := decEqItems xs ys
    decidable_of_iff (x = y ∧ xs = ys) (by simp)
  | [], _ :: _ | _ :: _, [] => .isFalse (by simp)

def decEqMembers : (xs ys : List (κ × Document κ σ)) → Decidable (xs = ys)
  | [], [] => .isTrue rfl
  | (k, x) :: xs, (j, y) :: ys =>
    have := decEq x y
    have := decEqMembers xs ys
    decidable_of_iff (k = j ∧ x = y ∧ xs = ys) (by simp [and_assoc])
  | [], _ :: _ | _ :: _, [] => .isFalse (by simp)

end

instance : DecidableEq (Document κ σ) := decEq

end

theorem paths_object (members : List (κ × Document κ σ)) :
    paths (.object members) = members.flatMap fun m => (paths m.2).map fun leaf => (m.1 :: leaf.1, leaf.2) := by
  rw [paths]
  induction members with
  | nil => rfl
  | cons m rest ih => rw [pathsIn, List.flatMap_cons, ih]

theorem paths_leaf {doc : Document κ σ} (leaf : doc.isTable = false) : doc.paths = [([], doc)] := by
  cases doc with
  | scalar value => simp only [paths]
  | array items => simp only [paths]
  | object members => cases leaf

theorem mapItems_eq (f : σ → τ) (items : List (Document κ σ)) : mapItems f items = items.map (map f) := by
  induction items with
  | nil => rfl
  | cons item rest ih => rw [mapItems, List.map_cons, ih]

theorem mapMembers_eq (f : σ → τ) (members : List (κ × Document κ σ)) :
    mapMembers f members = members.map fun m => (m.1, map f m.2) := by
  induction members with
  | nil => rfl
  | cons m rest ih => rw [mapMembers, List.map_cons, ih]

@[simp] theorem map_scalar (f : σ → τ) (value : σ) : map f (.scalar value : Document κ σ) = .scalar (f value) := by rw [map]

@[simp] theorem map_array (f : σ → τ) (items : List (Document κ σ)) : map f (.array items) = .array (items.map (map f)) := by
  rw [map, mapItems_eq]

@[simp] theorem map_object (f : σ → τ) (members : List (κ × Document κ σ)) :
    map f (.object members) = .object (members.map fun m => (m.1, map f m.2)) := by
  rw [map, mapMembers_eq]

theorem members_map (f : σ → τ) (doc : Document κ σ) : (doc.map f).members = doc.members.map fun m => (m.1, m.2.map f) := by
  cases doc with
  | scalar value => rw [map_scalar]; rfl
  | array items => rw [map_array]; rfl
  | object members => rw [map_object]; rfl

theorem depthMembers_le {members : List (κ × Document κ σ)} {n : Nat} :
    depthMembers members ≤ n ↔ ∀ m ∈ members, m.2.depth ≤ n := by
  induction members with
  | nil => simp [depthMembers]
  | cons m rest ih => rw [depthMembers, Nat.max_le, ih, List.forall_mem_cons]

theorem depth_object_le {members : List (κ × Document κ σ)} {n : Nat} :
    (Document.object members).depth ≤ n + 1 ↔ ∀ m ∈ members, m.2.depth ≤ n := by
  rw [depth, Nat.add_le_add_iff_right, depthMembers_le]

section

variable [DecidableEq κ]

/-- Where a path leads. -/
def at_ : Document κ σ → List κ → Option (Document κ σ)
  | doc, [] => some doc
  | doc, key :: rest => (doc.members.get? key).bind fun inner => at_ inner rest

@[simp] theorem at_nil (doc : Document κ σ) : doc.at_ [] = some doc := rfl

theorem at_cons (doc : Document κ σ) (key : κ) (rest : List κ) :
    doc.at_ (key :: rest) = (doc.members.get? key).bind fun inner => inner.at_ rest := rfl

theorem at_append (doc : Document κ σ) (path rest : List κ) :
    doc.at_ (path ++ rest) = (doc.at_ path).bind fun inner => inner.at_ rest := by
  induction path generalizing doc with
  | nil => rfl
  | cons key path ih =>
    rw [List.cons_append, at_cons, at_cons, Option.bind_assoc]
    congr
    funext inner
    exact ih inner

theorem get?_map (f : σ → τ) (members : Keyed κ (Document κ σ)) (key : κ) :
    Keyed.get? (members.map fun m => (m.1, m.2.map f)) key = (members.get? key).map (map f) := by
  induction members with
  | nil => rfl
  | cons m rest ih =>
    rw [List.map_cons, Keyed.get?_cons, Keyed.get?_cons, ih]
    split
    · rfl
    · rfl

theorem at_map (f : σ → τ) (doc : Document κ σ) (path : List κ) : (doc.map f).at_ path = (doc.at_ path).map (map f) := by
  induction path generalizing doc with
  | nil => rfl
  | cons key rest ih =>
    rw [at_cons, at_cons, members_map, get?_map]
    cases doc.members.get? key with
    | none => rfl
    | some inner => exact ih inner

theorem get?_append (xs ys : Keyed κ (Document κ σ)) (key : κ) :
    Keyed.get? (xs ++ ys) key = (xs.get? key).or (Keyed.get? ys key) := by
  induction xs with
  | nil => simp
  | cons x rest ih =>
    rw [List.cons_append, Keyed.get?_cons, Keyed.get?_cons, ih]
    split
    · rfl
    · rfl

theorem get?_filter (p : κ → Bool) (members : Keyed κ (Document κ σ)) (key : κ) :
    Keyed.get? (members.filter fun m => p m.1) key = if p key then members.get? key else none := by
  induction members with
  | nil => simp
  | cons m rest ih =>
    by_cases kept : p m.1 = true
    · simp only [List.filter_cons, kept, if_true, Keyed.get?_cons, ih]
      by_cases same : m.1 = key
      · simp [same, same ▸ kept]
      · simp [same]
    · simp only [List.filter_cons, kept, if_false, Bool.false_eq_true, Keyed.get?_cons, ih]
      by_cases same : m.1 = key
      · simp [same ▸ kept]
      · simp [same]

theorem at_empty {path : List κ} (some_ : path ≠ []) : (Document.object [] : Document κ σ).at_ path = none := by
  cases path with
  | nil => exact absurd rfl some_
  | cons key rest => rfl

theorem at_leaf {doc : Document κ σ} (leaf : doc.isTable = false) {path : List κ} {value : Document κ σ} :
    doc.at_ path = some value ↔ path = [] ∧ doc = value := by
  cases path with
  | nil => simp
  | cons key rest =>
    have none_ : doc.members = [] := by
      cases doc with
      | scalar value => rfl
      | array items => rfl
      | object members => cases leaf
    rw [at_cons, none_]
    simp

theorem get?_isSome_of_mem {members : Keyed κ (Document κ σ)} {m : κ × Document κ σ} (member : m ∈ members) :
    ∃ inner, members.get? m.1 = some inner := by
  induction members with
  | nil => exact absurd member List.not_mem_nil
  | cons first rest ih =>
    rw [Keyed.get?_cons]
    by_cases same : first.1 = m.1
    · exact ⟨first.2, if_pos same⟩
    · rw [if_neg same]
      rcases List.mem_cons.mp member with rfl | later
      · exact absurd rfl same
      · exact ih later

theorem depth_inner {doc : Document κ σ} {n : Nat} (shallow : doc.depth ≤ n + 1) (key : κ) :
    ((doc.members.get? key).getD (.object [])).depth ≤ n ∨ doc.members.get? key = none := by
  cases found : doc.members.get? key with
  | none => exact .inr rfl
  | some inner =>
    cases doc with
    | scalar value => cases found
    | array items => cases found
    | object members => exact .inl (depth_object_le.mp shallow _ (Keyed.mem_of_get? found))

end

section

variable [LinearOrder κ]

/-- A member in its place among the others. -/
def insert (members : Keyed κ (Document κ σ)) (key : κ) (value : Document κ σ) : Keyed κ (Document κ σ) :=
  members.filter (·.1 < key) ++ (key, value) :: members.filter (key < ·.1)

theorem mem_insert {members : Keyed κ (Document κ σ)} {key : κ} {value : Document κ σ} {m : κ × Document κ σ}
    (member : m ∈ insert members key value) : m ∈ members ∨ m = (key, value) := by
  rcases List.mem_append.mp member with before | after
  · exact .inl (List.mem_of_mem_filter before)
  · rcases List.mem_cons.mp after with same | after
    · exact .inr same
    · exact .inl (List.mem_of_mem_filter after)

/-- Every table's members in the order of their names, none twice. -/
inductive Ordered : Document κ σ → Prop
  | scalar (value : σ) : Ordered (.scalar value)
  | array {items : List (Document κ σ)} (each : ∀ item ∈ items, Ordered item) : Ordered (.array items)
  | object {members : List (κ × Document κ σ)} (order : members.Pairwise fun a b => a.1 < b.1)
      (each : ∀ m ∈ members, Ordered m.2) : Ordered (.object members)

theorem Ordered.members {doc : Document κ σ} (ordered : doc.Ordered) :
    (doc.members.Pairwise fun a b => a.1 < b.1) ∧ ∀ m ∈ doc.members, m.2.Ordered := by
  cases ordered with
  | scalar value => exact ⟨.nil, fun _ member => absurd member List.not_mem_nil⟩
  | array each => exact ⟨.nil, fun _ member => absurd member List.not_mem_nil⟩
  | object order each => exact ⟨order, each⟩

theorem ordered_empty : (Document.object [] : Document κ σ).Ordered :=
  .object .nil fun _ member => absurd member List.not_mem_nil

/-- No path leads to two leaves. -/
theorem Ordered.paths_nodup {doc : Document κ σ} (ordered : doc.Ordered) : (doc.paths.map Prod.fst).Nodup := by
  induction ordered with
  | scalar v =>
    rw [paths_leaf rfl]
    exact List.nodup_singleton _
  | array each =>
    rw [paths_leaf rfl]
    exact List.nodup_singleton _
  | @object ms order each ih =>
    have under (m : κ × Document κ σ) : ((m.2.paths.map fun leaf => (m.1 :: leaf.1, leaf.2)).map Prod.fst) =
        (m.2.paths.map Prod.fst).map (m.1 :: ·) := by simp
    rw [paths_object, List.map_flatMap, List.nodup_flatMap]
    constructor
    · intro m member
      rw [under]
      exact (ih m member).map (List.cons_injective)
    · refine order.imp fun {m m'} before => ?_
      have apart : List.Disjoint ((m.2.paths.map Prod.fst).map (m.1 :: ·)) ((m'.2.paths.map Prod.fst).map (m'.1 :: ·)) := by
        intro path among among'
        obtain ⟨_, _, rfl⟩ := List.mem_map.mp among
        obtain ⟨_, _, same⟩ := List.mem_map.mp among'
        exact before.ne (List.cons.inj same).1.symm
      rw [← under, ← under] at apart
      exact apart

theorem insert_ordered {members : Keyed κ (Document κ σ)} (order : members.Pairwise fun a b => a.1 < b.1) (key : κ)
    (value : Document κ σ) : (insert members key value).Pairwise fun a b => a.1 < b.1 := by
  have below {m : κ × Document κ σ} (member : m ∈ members.filter (·.1 < key)) : m.1 < key := by
    simpa using (List.mem_filter.mp member).2
  have above {m : κ × Document κ σ} (member : m ∈ members.filter (key < ·.1)) : key < m.1 := by
    simpa using (List.mem_filter.mp member).2
  refine List.pairwise_append.mpr ⟨order.sublist List.filter_sublist, ?_, fun a before b after => ?_⟩
  · exact List.pairwise_cons.mpr ⟨fun m member => above member, order.sublist List.filter_sublist⟩
  · rcases List.mem_cons.mp after with rfl | after
    · exact below before
    · exact (below before).trans (above after)

theorem insert_last {members : Keyed κ (Document κ σ)} {key : κ} (last : ∀ m ∈ members, m.1 < key) (value : Document κ σ) :
    insert members key value = members ++ [(key, value)] := by
  have all : members.filter (·.1 < key) = members := List.filter_eq_self.mpr fun m member => by simpa using last m member
  have none_ : members.filter (key < ·.1) = [] :=
    List.filter_eq_nil_iff.mpr fun m member => by simpa using (last m member).le
  rw [insert, all, none_]

/-- Members inserted in their order are as they were. -/
theorem foldl_insert {members : Keyed κ (Document κ σ)} (order : members.Pairwise fun a b => a.1 < b.1) :
    members.foldl (fun into m => insert into m.1 m.2) [] = members := by
  have from_ (into : Keyed κ (Document κ σ)) (order : (into ++ members).Pairwise fun a b => a.1 < b.1) :
      members.foldl (fun into m => insert into m.1 m.2) into = into ++ members := by
    induction members generalizing into with
    | nil => rw [List.foldl_nil, List.append_nil]
    | cons m rest ih =>
      have last : ∀ before ∈ into, before.1 < m.1 := fun before member =>
        (List.pairwise_append.mp order).2.2 before member m List.mem_cons_self
      have split : into ++ m :: rest = into ++ [m] ++ rest := by rw [List.append_assoc, List.singleton_append]
      rw [List.foldl_cons, insert_last last, split]
      exact ih (order.sublist (List.sublist_append_right _ _) |>.sublist (List.sublist_cons_self _ _)) _ (split ▸ order)
  exact from_ [] order

end

section

variable [DecidableEq κ] [LinearOrder κ]

/-- A path set, the tables made on the way. -/
def setPath : Document κ σ → List κ → Document κ σ → Document κ σ
  | _, [], value => value
  | doc, key :: rest, value =>
    .object (insert doc.members key (setPath ((doc.members.get? key).getD (.object [])) rest value))

theorem get?_insert (members : Keyed κ (Document κ σ)) (key other : κ) (value : Document κ σ) :
    Keyed.get? (insert members key value) other = if other = key then some value else members.get? other := by
  rw [insert, get?_append, Keyed.get?_cons, get?_filter fun k => k < key, get?_filter fun k => key < k]
  rcases lt_trichotomy other key with less | rfl | more
  · simp [less, less.ne, less.ne', less.not_gt]
  · simp
  · simp [more, more.ne, more.ne', more.not_gt]

theorem get?_of_mem {members : Keyed κ (Document κ σ)} (order : members.Pairwise fun a b => a.1 < b.1)
    {m : κ × Document κ σ} (member : m ∈ members) : members.get? m.1 = some m.2 := by
  induction members with
  | nil => exact absurd member List.not_mem_nil
  | cons first rest ih =>
    obtain ⟨before, order⟩ := List.pairwise_cons.mp order
    rw [Keyed.get?_cons]
    rcases List.mem_cons.mp member with rfl | later
    · rw [if_pos rfl]
    · rw [if_neg (before m later).ne, ih order later]

/-- Members in their order are what is found among them. -/
theorem ext_get? {xs ys : Keyed κ (Document κ σ)} (order : xs.Pairwise fun a b => a.1 < b.1)
    (order' : ys.Pairwise fun a b => a.1 < b.1) (same : ∀ key, xs.get? key = ys.get? key) : xs = ys := by
  have nodup {zs : Keyed κ (Document κ σ)} (order : zs.Pairwise fun a b => a.1 < b.1) : zs.Nodup :=
    order.imp fun before equal => before.ne (congrArg Prod.fst equal)
  have mem {zs : Keyed κ (Document κ σ)} (order : zs.Pairwise fun a b => a.1 < b.1) (m : κ × Document κ σ) :
      m ∈ zs ↔ zs.get? m.1 = some m.2 := ⟨get?_of_mem order, Keyed.mem_of_get?⟩
  refine List.Perm.eq_of_pairwise (fun a b _ _ less more => absurd less more.asymm) order order' ?_
  refine (List.perm_ext_iff_of_nodup (nodup order) (nodup order')).mpr fun m => ?_
  rw [mem order, mem order', same]

theorem members_setPath (doc : Document κ σ) (key : κ) (rest : List κ) (value : Document κ σ) :
    (doc.setPath (key :: rest) value).members =
      insert doc.members key (setPath ((doc.members.get? key).getD (.object [])) rest value) := rfl

theorem at_setPath_same (doc : Document κ σ) (path : List κ) (value : Document κ σ) :
    (doc.setPath path value).at_ path = some value := by
  induction path generalizing doc with
  | nil => rfl
  | cons key rest ih =>
    rw [at_cons, members_setPath, get?_insert, if_pos rfl]
    exact ih _

/-- Paths of which neither is on the way to the other. -/
def Apart (path other : List κ) : Prop := ¬path <+: other ∧ ¬other <+: path

theorem at_setPath_apart {path other : List κ} (apart : Apart path other) (doc value : Document κ σ) :
    (doc.setPath path value).at_ other = doc.at_ other := by
  induction path generalizing doc other with
  | nil => exact absurd List.nil_prefix apart.1
  | cons key rest ih =>
    cases other with
    | nil => exact absurd List.nil_prefix apart.2
    | cons key' rest' =>
      rw [at_cons, at_cons, members_setPath, get?_insert]
      by_cases same : key' = key
      · subst same
        have apart' : Apart rest rest' :=
          ⟨fun before => apart.1 (List.cons_prefix_cons.mpr ⟨rfl, before⟩),
            fun before => apart.2 (List.cons_prefix_cons.mpr ⟨rfl, before⟩)⟩
        rw [if_pos rfl, Option.bind_some, ih apart']
        cases doc.members.get? key' with
        | none => exact at_empty fun none_ => apart'.2 (none_ ▸ List.nil_prefix)
        | some inner => rfl
      · rw [if_neg same]

/-! ### Leaves -/

/-- The leaves of a document are what its paths lead to. -/
theorem Ordered.mem_paths {doc : Document κ σ} (ordered : doc.Ordered) {path : List κ} {value : Document κ σ} :
    (path, value) ∈ doc.paths ↔ doc.at_ path = some value ∧ value.isTable = false := by
  induction ordered generalizing path with
  | scalar v =>
    rw [paths_leaf rfl, List.mem_singleton, at_leaf rfl, Prod.mk.injEq]
    constructor
    · rintro ⟨rfl, rfl⟩
      exact ⟨⟨rfl, rfl⟩, rfl⟩
    · rintro ⟨⟨rfl, rfl⟩, _⟩
      exact ⟨rfl, rfl⟩
  | array each =>
    rw [paths_leaf rfl, List.mem_singleton, at_leaf rfl, Prod.mk.injEq]
    constructor
    · rintro ⟨rfl, rfl⟩
      exact ⟨⟨rfl, rfl⟩, rfl⟩
    · rintro ⟨⟨rfl, rfl⟩, _⟩
      exact ⟨rfl, rfl⟩
  | @object ms order each ih =>
    rw [paths_object, List.mem_flatMap]
    cases path with
    | nil =>
      constructor
      · rintro ⟨m, _, inside⟩
        obtain ⟨leaf, _, is⟩ := List.mem_map.mp inside
        cases is
      · rintro ⟨is, leaf⟩
        cases is
        cases leaf
    | cons key rest =>
      rw [at_cons]
      constructor
      · rintro ⟨m, member, inside⟩
        obtain ⟨leaf, there, is⟩ := List.mem_map.mp inside
        cases is
        have found : (Document.object ms).members.get? m.1 = some m.2 := get?_of_mem order member
        rw [found, Option.bind_some]
        exact (ih m member).mp there
      · rintro ⟨is, leaf⟩
        obtain ⟨inner, found, there⟩ := Option.bind_eq_some_iff.mp is
        have member := Keyed.mem_of_get? found
        exact ⟨_, member, List.mem_map.mpr ⟨_, (ih _ member).mpr ⟨there, leaf⟩, rfl⟩⟩

theorem Ordered.inner {doc : Document κ σ} (ordered : doc.Ordered) (key : κ) :
    ((doc.members.get? key).getD (.object [])).Ordered := by
  cases found : doc.members.get? key with
  | none => exact ordered_empty
  | some inner => exact ordered.members.2 _ (Keyed.mem_of_get? found)

theorem Ordered.setPath {doc : Document κ σ} (ordered : doc.Ordered) (path : List κ) {value : Document κ σ}
    (set : value.Ordered) : (doc.setPath path value).Ordered := by
  induction path generalizing doc with
  | nil => exact set
  | cons key rest ih =>
    refine .object (insert_ordered ordered.members.1 _ _) fun m member => ?_
    rcases mem_insert member with before | rfl
    · exact ordered.members.2 m before
    · exact ih (ordered.inner key)

/-- A leaf of a document in which one was set is that one, or was there. -/
theorem at_setPath_leaf {doc value : Document κ σ} (leaf : value.isTable = false) {path other : List κ} {found : Document κ σ}
    (is : (doc.setPath path value).at_ other = some found) (leaf' : found.isTable = false) :
    (other = path ∧ found = value) ∨ doc.at_ other = some found := by
  induction path generalizing doc other with
  | nil =>
    obtain ⟨rfl, rfl⟩ := (at_leaf leaf).mp is
    exact .inl ⟨rfl, rfl⟩
  | cons key rest ih =>
    cases other with
    | nil =>
      cases is
      cases leaf'
    | cons key' rest' =>
      rw [at_cons, members_setPath, get?_insert] at is
      rw [at_cons]
      by_cases same : key' = key
      · subst same
        rw [if_pos rfl, Option.bind_some] at is
        rcases ih is with ⟨rfl, rfl⟩ | before
        · exact .inl ⟨rfl, rfl⟩
        · cases inner : doc.members.get? key' with
          | some inner' =>
            rw [inner] at before
            exact .inr before
          | none =>
            rw [inner, Option.getD_none] at before
            cases rest' with
            | nil =>
              cases before
              cases leaf'
            | cons _ _ => cases before
      · rw [if_neg same] at is
        exact .inr is

/-! ### Tables on the way -/

/-- On the way to a path set there are tables; their members were there, or are on the way. -/
theorem setPath_table {way path : List κ} (before : way <+: path) (other : way ≠ path) (doc value : Document κ σ) :
    ∃ members, (doc.setPath path value).at_ way = some (.object members) ∧
      ∀ m ∈ members, way ++ [m.1] <+: path ∨ ∃ inner, doc.at_ (way ++ [m.1]) = some inner := by
  induction way generalizing doc path with
  | nil =>
    cases path with
    | nil => exact absurd rfl other
    | cons key rest =>
      refine ⟨_, rfl, fun m member => ?_⟩
      rcases mem_insert member with there | rfl
      · obtain ⟨inner, found⟩ := get?_isSome_of_mem there
        refine .inr ⟨inner, ?_⟩
        rw [List.nil_append, at_cons, found]
        rfl
      · exact .inl (List.cons_prefix_cons.mpr ⟨rfl, List.nil_prefix⟩)
  | cons key way ih =>
    cases path with
    | nil => exact absurd (List.prefix_nil.mp before) (List.cons_ne_nil _ _)
    | cons key' rest =>
      obtain ⟨rfl, inside⟩ := List.cons_prefix_cons.mp before
      have unlike : way ≠ rest := fun same => other (congrArg (key :: ·) same)
      obtain ⟨members, is, each⟩ := ih inside unlike ((doc.members.get? key).getD (.object []))
      refine ⟨members, ?_, fun m member => ?_⟩
      · rw [at_cons, members_setPath, get?_insert, if_pos rfl, Option.bind_some, is]
      · rcases each m member with onTheWay | ⟨inner, there⟩
        · exact .inl (List.cons_prefix_cons.mpr ⟨rfl, onTheWay⟩)
        · refine .inr ⟨inner, ?_⟩
          rw [List.cons_append, at_cons]
          cases found : doc.members.get? key with
          | some below =>
            rw [found] at there
            exact there
          | none =>
            rw [found, Option.getD_none, at_empty (by simp)] at there
            cases there

/-! ### Depth -/

/-- A leaf set no deeper than the document is leaves it no deeper. -/
theorem depth_setPath {doc value : Document κ σ} (leaf : value.depth = 0) {path : List κ} {n : Nat}
    (shallow : doc.depth ≤ n) (short : path.length ≤ n) : (doc.setPath path value).depth ≤ n := by
  induction path generalizing doc n with
  | nil => exact leaf.trans_le (Nat.zero_le n)
  | cons key rest ih =>
    obtain ⟨n, rfl⟩ := Nat.exists_eq_add_of_le' (Nat.succ_le_of_lt (Nat.lt_of_lt_of_le (Nat.succ_pos _) short))
    have short : rest.length ≤ n := Nat.le_of_succ_le_succ short
    refine depth_object_le.mpr fun m member => ?_
    rcases mem_insert member with before | rfl
    · cases doc with
      | scalar value => exact absurd before List.not_mem_nil
      | array items => exact absurd before List.not_mem_nil
      | object members => exact depth_object_le.mp shallow m before
    · rcases depth_inner shallow key with inner | none_
      · exact ih inner short
      · rw [none_, Option.getD_none]
        cases rest with
        | nil => exact leaf.trans_le (Nat.zero_le n)
        | cons next more =>
          have empty : (Document.object [] : Document κ σ).depth ≤ 0 + 1 :=
            depth_object_le.mpr fun _ member => absurd member List.not_mem_nil
          have some_ : 0 + 1 ≤ n := Nat.le_trans (Nat.succ_le_succ (Nat.zero_le more.length)) short
          exact ih (Nat.le_trans empty some_) short

end

end Document

end AetherHF
