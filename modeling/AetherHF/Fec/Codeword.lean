import Mathlib.Data.List.GetD
import AetherHF.Base.QuasiCyclic
import AetherHF.Fec.Ldpc

/-! Every encoded word is a codeword: the encoder's passes are the solving of the base
graph's rows one column after another, over bytes under exclusive or, and the tables have
the shape that needs at every lifting size. -/
namespace AetherHF.Fec

open QuasiCyclic

/-! ### Bytes under exclusive or -/

@[ext] structure XorByte where
  byte : UInt8
  deriving DecidableEq

namespace XorByte

instance : Add XorByte := ⟨fun a b => ⟨a.byte ^^^ b.byte⟩⟩

instance : Zero XorByte := ⟨⟨0⟩⟩

instance : Neg XorByte := ⟨id⟩

theorem add_byte (a b : XorByte) : (a + b).byte = a.byte ^^^ b.byte := rfl

theorem double (a : XorByte) : a + a = 0 := XorByte.ext (UInt8.xor_self ..)

instance : AddCommGroup XorByte where
  add_assoc a b c := XorByte.ext (UInt8.xor_assoc ..)
  zero_add a := XorByte.ext UInt8.zero_xor
  add_zero a := XorByte.ext UInt8.xor_zero
  neg_add_cancel := double
  add_comm a b := XorByte.ext (UInt8.xor_comm ..)
  nsmul := nsmulRec
  zsmul := zsmulRec

/-- The bits. -/
def bits : AddSubgroup XorByte where
  carrier := {a | a.byte = 0 ∨ a.byte = 1}
  add_mem' := by
    rintro ⟨a⟩ ⟨b⟩ (rfl | rfl) (rfl | rfl) <;> decide
  zero_mem' := .inl rfl
  neg_mem' member := member

end XorByte

/-! ### A word by its columns -/

/-- The columns of a word. -/
def view (z : Nat) (cw : Bytes) : Word z XorByte := fun col r => ⟨cw.getD (col * z + r) 0⟩

/-- The places of a block. -/
def viewBlock (z : Nat) (block : Bytes) (r : Fin z) : XorByte := ⟨block.getD r 0⟩

variable {z : Nat}

theorem column_le {col cols : Nat} (inside : col < cols) : (col + 1) * z ≤ cols * z := Nat.mul_le_mul_right z inside

theorem place_lt (r : Fin z) {col cols : Nat} (inside : col < cols) : col * z + r < cols * z := by
  have room := column_le (z := z) inside
  rw [Nat.succ_mul] at room
  have := r.isLt
  omega

theorem viewBlock_blockAt (cw : Bytes) (col : Nat) :
    viewBlock z (blockAt z cw col) = view z cw col := by
  funext r
  refine XorByte.ext ?_
  simp only [viewBlock, view, blockAt, List.getD_eq_getElem?_getD, List.getElem?_take, List.getElem?_drop, if_pos r.isLt]

theorem length_blockAt {cw : Bytes} {col : Nat} (inside : (col + 1) * z ≤ cw.length) :
    (blockAt z cw col).length = z := by
  rw [Nat.succ_mul] at inside
  rw [blockAt, List.length_take, List.length_drop]
  omega

@[simp] theorem length_rotateInto (dst src : Bytes) (s : Nat) : (rotateInto dst src s).length = dst.length := by
  simp [rotateInto]

theorem viewBlock_rotateInto {dst src : Bytes} (length : dst.length = z) (length' : src.length = z) (s : Nat) (r : Fin z) :
    viewBlock z (rotateInto dst src s) r = viewBlock z dst r + viewBlock z src (shift r s) := by
  have inside : r.val < dst.length := length ▸ r.isLt
  refine XorByte.ext ?_
  simp [viewBlock, rotateInto, shift, XorByte.add_byte, List.getD_eq_getElem?_getD, inside, length']

theorem viewBlock_zero (r : Fin z) : viewBlock z (List.replicate z 0) r = 0 :=
  XorByte.ext (by simp [viewBlock]; rfl)

/-- What a row's entries add up to, from a block summed so far. -/
theorem foldl_rotateInto {block : Nat → Bytes} {row : List (Nat × Nat)} (keep : Nat → Bool)
    (size : ∀ e ∈ row, (block e.1).length = z) {acc : Bytes} (length : acc.length = z) :
    let out := row.foldl (fun acc e => if keep e.1 then rotateInto acc (block e.1) e.2 else acc) acc;
    out.length = z ∧ ∀ r, viewBlock z out r =
      viewBlock z acc r + check (row.filter fun e => keep e.1) (fun col => viewBlock z (block col)) r := by
  induction row generalizing acc with
  | nil => exact ⟨length, fun r => by simp [check]⟩
  | cons e rest ih =>
    obtain ⟨here, later⟩ := List.forall_mem_cons.mp size
    cases kept : keep e.1 with
    | false => simpa [kept] using ih later length
    | true =>
      have rotated : (rotateInto acc (block e.1) e.2).length = z := (length_rotateInto ..).trans length
      obtain ⟨length', view'⟩ := ih later rotated
      have filtered : ((e :: rest).filter fun e => keep e.1) = e :: rest.filter fun e => keep e.1 := by simp [kept]
      rw [List.foldl_cons, if_pos kept]
      refine ⟨length', fun r => ?_⟩
      rw [view' r, viewBlock_rotateInto length here, filtered, check_cons, add_assoc]

/-- A column overwritten, and the others as they were. -/
theorem view_setBlock {cw value : Bytes} (col : Nat) (inside : (col + 1) * z ≤ cw.length) (length : value.length = z) :
    (setBlock z cw col value).length = cw.length ∧
      view z (setBlock z cw col value) = Function.update (view z cw) col (viewBlock z value) := by
  have room := inside
  rw [Nat.succ_mul] at room
  have front : (cw.take (col * z)).length = col * z := by
    rw [List.length_take]
    omega
  refine ⟨?_, ?_⟩
  · rw [setBlock, List.length_append, List.length_append, front, length, List.length_drop, Nat.succ_mul]
    omega
  · funext j r
    have below := r.isLt
    refine XorByte.ext ?_
    rcases lt_trichotomy j col with less | same | more
    · have before := place_lt r less
      rw [Function.update_of_ne less.ne]
      simp only [view, setBlock, List.append_assoc]
      rw [List.getD_append _ _ _ _ (by rw [front]; exact before), List.getD_eq_getElem?_getD, List.getElem?_take,
        if_pos before, List.getD_eq_getElem?_getD]
    · subst same
      rw [Function.update_self]
      simp only [view, viewBlock, setBlock, List.append_assoc]
      rw [List.getD_append_right _ _ _ _ (by rw [front]; omega), front, Nat.add_sub_cancel_left,
        List.getD_append _ _ _ _ (by rw [length]; exact below)]
    · have beyond := column_le (z := z) more
      rw [Nat.succ_mul] at beyond
      have place : col * z + z + (j * z + r - (col * z + z)) = j * z + r := by omega
      rw [Function.update_of_ne more.ne']
      simp only [view, setBlock]
      rw [List.getD_append_right _ _ _ _ (by rw [List.length_append, front, length]; omega), List.length_append, front,
        length, List.getD_eq_getElem?_getD, List.getElem?_drop, Nat.succ_mul, place, List.getD_eq_getElem?_getD]

/-- A word is its columns. -/
theorem view_injective {cw cw' : Bytes} {cols : Nat} (positive : 0 < z) (length : cw.length = cols * z)
    (length' : cw'.length = cols * z) (same : view z cw = view z cw') : cw = cw' := by
  refine List.ext_getElem (length.trans length'.symm) fun p inside inside' => ?_
  have here := congrArg XorByte.byte (congrFun (congrFun same (p / z)) ⟨p % z, Nat.mod_lt p positive⟩)
  simp only [view, Nat.div_add_mod'] at here
  rwa [List.getD_eq_getElem _ _ inside, List.getD_eq_getElem _ _ inside'] at here

/-! ### The tables -/

/-- The graphs, and their counts of information columns. -/
def graphs : List (BaseGraph × Nat) := [(bg1, 22), (bg2, 10)]

/-- The columns below one, of so many. -/
def below (n t : Nat) : List Bool := (List.range n).map fun col => col < t

/-- The rows an encoder solves and the columns it solves them for: three of the core, and
the extension. -/
def steps (g : BaseGraph) (kb iLs : Nat) : List Step :=
  (List.range 3).map (fun row => ((g.tableRows iLs).getD row [], kb + 1 + row)) ++
    (List.range' 4 (g.rows - 4)).map fun row => ((g.tableRows iLs).getD row [], kb + row)

theorem graphs_wide : ∀ g ∈ graphs, g.2 + g.1.rows = g.1.cols ∧ 4 ≤ g.1.rows := by decide

theorem length_tableRows (g : BaseGraph) (iLs : Nat) : (g.tableRows iLs).length = g.rows := by
  simp [BaseGraph.tableRows]

/-- The tables, read through: their columns are the graph's, and past the information
columns the four core rows cancel but for one shift of the first parity column; each step
solves for the block it is of, and the passes find the core rows in this order. -/
theorem graphs_read : ∀ g ∈ graphs, ∀ iLs < 8,
    (∀ row ∈ g.1.tableRows iLs, ∀ e ∈ row, e.1 < g.1.cols) ∧
    (∃ s ∈ (((g.1.tableRows iLs).take 4).flatten.map Prod.snd),
      Paired ((g.2, s) :: ((g.1.tableRows iLs).take 4).flatten.filter fun e => !decide (e.1 < g.2))) ∧
    (∀ s ∈ steps g.1 g.2 iLs, Solves s) ∧
    ∀ row < 3, NrLdpcCode.solvable g.2 (g.1.tableRows iLs) (below (g.2 + 4) (g.2 + 1 + row)) =
      some (row, g.2 + 1 + row) := by
  decide +kernel

theorem graphs_inside : ∀ g ∈ graphs, ∀ iLs < 8, ∀ row ∈ g.1.tableRows iLs, ∀ e ∈ row, e.1 < g.1.cols :=
  fun g graph iLs small => (graphs_read g graph iLs small).1

theorem graphs_pivot : ∀ g ∈ graphs, ∀ iLs < 8, ∃ s ∈ (((g.1.tableRows iLs).take 4).flatten.map Prod.snd),
    Paired ((g.2, s) :: ((g.1.tableRows iLs).take 4).flatten.filter fun e => !decide (e.1 < g.2)) :=
  fun g graph iLs small => (graphs_read g graph iLs small).2.1

theorem graphs_solves : ∀ g ∈ graphs, ∀ iLs < 8, ∀ s ∈ steps g.1 g.2 iLs, Solves s :=
  fun g graph iLs small => (graphs_read g graph iLs small).2.2.1

theorem graphs_order : ∀ g ∈ graphs, ∀ iLs < 8, ∀ row < 3,
    NrLdpcCode.solvable g.2 (g.1.tableRows iLs) (below (g.2 + 4) (g.2 + 1 + row)) = some (row, g.2 + 1 + row) :=
  fun g graph iLs small => (graphs_read g graph iLs small).2.2.2

/-! ### The passes -/

theorem getD_below {n t : Nat} (within : t ≤ n) (col : Nat) : (below n t).getD col false = decide (col < t) := by
  unfold below
  rw [List.getD_eq_getElem?_getD, List.getElem?_map]
  by_cases inside : col < n
  · rw [List.getElem?_range inside]
    rfl
  · rw [List.getElem?_eq_none (by simpa using inside)]
    have beyond : ¬col < t := by omega
    simp [beyond]

theorem set_below (n t : Nat) : (below n t).set t true = below n (t + 1) := by
  refine List.ext_getElem (by simp [below]) fun col inside _ => ?_
  rw [List.getElem_set]
  simp only [below, List.getElem_map, List.getElem_range]
  by_cases here : t = col
  · simp [here]
  · rw [if_neg here]
    exact decide_eq_decide.mpr (by omega)

/-- A code made from a graph's table. -/
structure Built (g : BaseGraph) (kb iLs z : Nat) (code : NrLdpcCode) : Prop where
  positive : 0 < z
  size : code.z = z
  info : code.kb = kb
  rows : code.rows = g.rows
  k : code.k = kb * z
  nFull : code.nFull = g.cols * z
  blockRows : code.blockRows = (g.tableRows iLs).map fun row => row.map fun e => (e.1, e.2 % z)

variable {g : BaseGraph} {kb iLs : Nat} {code : NrLdpcCode}

theorem unknown_mod (kb : Nat) (row : List (Nat × Nat)) (known : List Bool) :
    NrLdpcCode.unknown kb (row.map fun e => (e.1, e.2 % z)) known = NrLdpcCode.unknown kb row known := by
  unfold NrLdpcCode.unknown
  rw [List.map_map]
  rfl

theorem getD_mod (rows : List (List (Nat × Nat))) (row : Nat) :
    (rows.map fun row => row.map fun e => (e.1, e.2 % z)).getD row [] =
      (rows.getD row []).map fun e => (e.1, e.2 % z) := by
  rw [List.getD_eq_getElem?_getD, List.getElem?_map, List.getD_eq_getElem?_getD]
  cases rows[row]? <;> rfl

theorem solvable_mod (kb : Nat) (rows : List (List (Nat × Nat))) (known : List Bool) :
    NrLdpcCode.solvable kb (rows.map fun row => row.map fun e => (e.1, e.2 % z)) known =
      NrLdpcCode.solvable kb rows known := by
  unfold NrLdpcCode.solvable
  simp only [getD_mod, unknown_mod]

/-- What a row of the table sums to, over the columns kept. -/
theorem Built.rowSum (built : Built g kb iLs z code) (inside : ∀ row ∈ g.tableRows iLs, ∀ e ∈ row, e.1 < g.cols)
    {cw : Bytes} (length : cw.length = g.cols * z) (row : Nat) (keep : Nat → Bool) :
    (code.rowSum cw row keep).length = z ∧ ∀ r, viewBlock z (code.rowSum cw row keep) r =
      check (((g.tableRows iLs).getD row []).filter fun e => keep e.1) (view z cw) r := by
  have within : ∀ e ∈ ((g.tableRows iLs).getD row []).map fun e => (e.1, e.2 % z),
      (blockAt z cw e.1).length = z := by
    intro e member
    obtain ⟨entry, among, rfl⟩ := List.mem_map.mp member
    refine length_blockAt ?_
    by_cases known : row < (g.tableRows iLs).length
    · rw [List.getD_eq_getElem _ _ known] at among
      exact length ▸ column_le (inside _ (List.getElem_mem known) entry among)
    · rw [List.getD_eq_default _ _ (Nat.le_of_not_lt known)] at among
      cases among
  obtain ⟨size, sum⟩ := foldl_rotateInto keep within (List.length_replicate (n := z) (a := (0 : UInt8)))
  unfold NrLdpcCode.rowSum
  rw [built.blockRows, built.size, getD_mod]
  refine ⟨size, fun r => ?_⟩
  rw [sum r, viewBlock_zero, zero_add, List.filter_map, check_mod, funext (viewBlock_blockAt cw)]
  rfl

/-- A solved column of the code is a solved column of its word. -/
theorem Built.solve (built : Built g kb iLs z code) (inside : ∀ row ∈ g.tableRows iLs, ∀ e ∈ row, e.1 < g.cols)
    {cw : Bytes} (length : cw.length = g.cols * z) (row target : Nat) (within : target < g.cols)
    {keep : Nat → Bool} (before : ∀ col, keep col = decide (col < target)) :
    (setBlock z cw target (code.rowSum cw row keep)).length = g.cols * z ∧
      view z (setBlock z cw target (code.rowSum cw row keep)) =
        QuasiCyclic.solve (view z cw) ((g.tableRows iLs).getD row [], target) := by
  obtain ⟨size, sum⟩ := built.rowSum inside length row keep
  obtain ⟨length', set_⟩ := view_setBlock target (length ▸ column_le within) size
  refine ⟨length'.trans length, ?_⟩
  rw [set_, funext sum]
  unfold QuasiCyclic.solve
  simp only [before]

theorem Built.pass (built : Built g kb iLs z code) (inside : ∀ row ∈ g.tableRows iLs, ∀ e ∈ row, e.1 < g.cols)
    (wide : kb + g.rows = g.cols) (tall : 4 ≤ g.rows) {row : Nat} (core : row < 3)
    (order : NrLdpcCode.solvable kb (g.tableRows iLs) (below (kb + 4) (kb + 1 + row)) = some (row, kb + 1 + row))
    {cw : Bytes} (length : cw.length = g.cols * z) :
    (code.pass (cw, below (kb + 4) (kb + 1 + row))).1.length = g.cols * z ∧
      view z (code.pass (cw, below (kb + 4) (kb + 1 + row))).1 =
        QuasiCyclic.solve (view z cw) ((g.tableRows iLs).getD row [], kb + 1 + row) ∧
      (code.pass (cw, below (kb + 4) (kb + 1 + row))).2 = below (kb + 4) (kb + 1 + (row + 1)) := by
  have found : NrLdpcCode.solvable code.kb code.blockRows (below (kb + 4) (kb + 1 + row)) =
      some (row, kb + 1 + row) := by
    rw [built.info, built.blockRows, solvable_mod, order]
  have before (col : Nat) : (decide (col < code.kb + 4) && (below (kb + 4) (kb + 1 + row)).getD col false) =
      decide (col < kb + 1 + row) := by
    rw [getD_below (by omega), built.info, ← Bool.decide_and]
    exact decide_eq_decide.mpr (by omega)
  unfold NrLdpcCode.pass
  simp only [found, built.size]
  obtain ⟨length', solved⟩ := built.solve inside length row (kb + 1 + row) (by omega) before
  exact ⟨length', solved, set_below ..⟩

/-! ### Encoding -/

/-- The entries of the four core rows. -/
def core (g : BaseGraph) (iLs : Nat) : Row := ((g.tableRows iLs).take 4).flatten

theorem length_xorBytes {a b : Bytes} (length : a.length = z) (length' : b.length = z) : (xorBytes a b).length = z := by
  simp [xorBytes, length, length']

theorem view_xorBytes {a b : Bytes} (same : a.length = b.length) : view z (xorBytes a b) = view z a + view z b := by
  funext col r
  refine XorByte.ext ?_
  change (xorBytes a b).getD _ 0 = a.getD _ 0 ^^^ b.getD _ 0
  simp only [xorBytes, List.getD_eq_getElem?_getD, List.getElem?_zipWith]
  by_cases inside : col * z + r < a.length
  · rw [List.getElem?_eq_getElem inside, List.getElem?_eq_getElem (same ▸ inside)]
    rfl
  · rw [List.getElem?_eq_none (Nat.le_of_not_lt inside), List.getElem?_eq_none (same ▸ Nat.le_of_not_lt inside)]
    rfl

theorem viewBlock_xorBytes {a b : Bytes} (same : a.length = b.length) (r : Fin z) :
    viewBlock z (xorBytes a b) r = viewBlock z a r + viewBlock z b r := by
  have all := congrFun (congrFun (view_xorBytes (z := z) same) 0) r
  have zero (block : Bytes) : view z block 0 r = viewBlock z block r := by simp [view, viewBlock]
  rw [← zero, ← zero, ← zero, all]
  rfl

theorem Built.foldl_rowSum (built : Built g kb iLs z code) (inside : ∀ row ∈ g.tableRows iLs, ∀ e ∈ row, e.1 < g.cols)
    {cw : Bytes} (length : cw.length = g.cols * z) (keep : Nat → Bool) (rows : List Nat) {acc : Bytes}
    (size : acc.length = z) :
    (rows.foldl (fun acc row => xorBytes acc (code.rowSum cw row keep)) acc).length = z ∧
      ∀ r, viewBlock z (rows.foldl (fun acc row => xorBytes acc (code.rowSum cw row keep)) acc) r = viewBlock z acc r +
        (rows.map fun row => check (((g.tableRows iLs).getD row []).filter fun e => keep e.1) (view z cw) r).sum := by
  induction rows generalizing acc with
  | nil => exact ⟨size, fun r => by simp⟩
  | cons row rest ih =>
    obtain ⟨size', sum⟩ := built.rowSum inside length row keep
    obtain ⟨size'', later⟩ := ih (length_xorBytes size size')
    refine ⟨size'', fun r => ?_⟩
    rw [List.foldl_cons, later r, viewBlock_xorBytes (size.trans size'.symm), sum r, List.map_cons, List.sum_cons,
      add_assoc]

/-- The core rows one by one. -/
theorem range_core (tall : 4 ≤ g.rows) :
    (List.range 4).map (fun row => (g.tableRows iLs).getD row []) = (g.tableRows iLs).take 4 := by
  have size := length_tableRows g iLs
  refine List.ext_getElem (by simp [size, tall]) fun row inside _ => ?_
  have below : row < 4 := by simpa using inside
  simp only [List.getElem_map, List.getElem_range, List.getElem_take]
  exact List.getD_eq_getElem _ _ (by omega)

theorem sum_core (tall : 4 ≤ g.rows) (keep : Nat → Bool) (c : Word z XorByte) (r : Fin z) :
    ((List.range 4).map fun row => check (((g.tableRows iLs).getD row []).filter fun e => keep e.1) c r).sum =
      check ((core g iLs).filter fun e => keep e.1) c r := by
  rw [core, ← range_core tall, List.filter_flatten, ← check_flatten, List.map_map, List.map_map]
  rfl

/-- The first parity column of a word. -/
def pivotColumn (g : BaseGraph) (kb iLs p : Nat) (c : Word z XorByte) : Fin z → XorByte := fun r =>
  check ((core g iLs).filter fun e => decide (e.1 < kb)) c (shift r (z - p % z))

theorem Built.firstParity (built : Built g kb iLs z code) (inside : ∀ row ∈ g.tableRows iLs, ∀ e ∈ row, e.1 < g.cols)
    (tall : 4 ≤ g.rows) {cw : Bytes} (length : cw.length = g.cols * z) :
    (code.firstParity cw).length = z ∧
      viewBlock z (code.firstParity cw) = pivotColumn g kb iLs code.p1Shift (view z cw) := by
  obtain ⟨_, sum⟩ := built.foldl_rowSum inside length (fun col => decide (col < kb)) (List.range 4)
    (List.length_replicate (n := z) (a := (0 : UInt8)))
  unfold NrLdpcCode.firstParity
  simp only [built.size, built.info]
  refine ⟨by simp, funext fun r => ?_⟩
  have small := Nat.mod_lt code.p1Shift built.positive
  have place : (r + z - code.p1Shift % z) % z = (shift r (z - code.p1Shift % z)).val := by
    unfold shift
    congr 1
    omega
  have here := sum (shift r (z - code.p1Shift % z))
  rw [viewBlock_zero, zero_add] at here
  have total := here.trans (sum_core tall (fun col => decide (col < kb)) (view z cw) _)
  unfold pivotColumn
  rw [← total]
  refine XorByte.ext ?_
  simp only [viewBlock]
  rw [List.getD_eq_getElem _ _ (by simp), List.getElem_map, List.getElem_range, place]

/-- Three passes solve the core, whatever the word. -/
theorem Built.solveCore (built : Built g kb iLs z code) (inside : ∀ row ∈ g.tableRows iLs, ∀ e ∈ row, e.1 < g.cols)
    (wide : kb + g.rows = g.cols) (tall : 4 ≤ g.rows)
    (order : ∀ row < 3, NrLdpcCode.solvable kb (g.tableRows iLs) (below (kb + 4) (kb + 1 + row)) =
      some (row, kb + 1 + row)) {cw : Bytes} (length : cw.length = g.cols * z) :
    (code.solveCore cw).1.length = g.cols * z ∧
      view z (code.solveCore cw).1 = solveAll (view z cw)
        ((List.range 3).map fun row => ((g.tableRows iLs).getD row [], kb + 1 + row)) ∧
      (code.solveCore cw).2 = List.replicate (kb + 4) true := by
  have passes (n : Nat) (few : n ≤ 3) :
      ∃ cw', (List.range n).foldl (fun state _ => code.pass state) (cw, below (kb + 4) (kb + 1)) =
        (cw', below (kb + 4) (kb + 1 + n)) ∧ cw'.length = g.cols * z ∧
        view z cw' = solveAll (view z cw) ((List.range n).map fun row => ((g.tableRows iLs).getD row [], kb + 1 + row)) := by
    induction n with
    | zero => exact ⟨cw, rfl, length, rfl⟩
    | succ n ih =>
      obtain ⟨cw', run, length', solved⟩ := ih (by omega)
      obtain ⟨length'', step, known⟩ := built.pass inside wide tall few (order n few) length'
      refine ⟨_, ?_, length'', ?_⟩
      · rw [List.range_succ, List.foldl_append, run]
        exact Prod.ext rfl known
      · rw [step, solved, List.range_succ, List.map_append, solveAll_append]
        rfl
  obtain ⟨cw', run, length', solved⟩ := passes 3 (Nat.le_refl _)
  have start : code.solveCore cw = (cw', below (kb + 4) (kb + 1 + 3)) := by
    unfold NrLdpcCode.solveCore
    rw [built.info]
    exact run
  rw [start]
  refine ⟨length', solved, List.eq_replicate_iff.mpr ⟨by simp [below], fun b member => ?_⟩⟩
  obtain ⟨col, among, rfl⟩ := List.mem_map.mp member
  exact decide_eq_true (List.mem_range.mp among)

theorem Built.extend (built : Built g kb iLs z code) (inside : ∀ row ∈ g.tableRows iLs, ∀ e ∈ row, e.1 < g.cols)
    (wide : kb + g.rows = g.cols) {n : Nat} (few : 4 + n ≤ g.rows) {cw : Bytes} (length : cw.length = g.cols * z) :
    ∃ cw', (List.range' 4 n).foldl code.extend (cw, below g.cols (kb + 4)) = (cw', below g.cols (kb + (4 + n))) ∧
      cw'.length = g.cols * z ∧ view z cw' = solveAll (view z cw)
        ((List.range' 4 n).map fun row => ((g.tableRows iLs).getD row [], kb + row)) := by
  induction n with
  | zero => exact ⟨cw, rfl, length, rfl⟩
  | succ n ih =>
    obtain ⟨cw', run, length', solved⟩ := ih (by omega)
    obtain ⟨length'', step⟩ := built.solve inside length' (4 + n) (kb + (4 + n)) (by omega)
      (fun col => getD_below (show kb + (4 + n) ≤ g.cols by omega) col)
    have last : List.range' 4 (n + 1) = List.range' 4 n ++ [4 + n] := by
      rw [List.range'_concat]
      simp
    refine ⟨_, ?_, length'', ?_⟩
    · rw [last, List.foldl_append, run, List.foldl_cons, List.foldl_nil]
      unfold NrLdpcCode.extend
      rw [built.size, built.info]
      exact Prod.ext rfl (set_below ..)
    · rw [step, solved, last, List.map_append, solveAll_append]
      rfl

/-- The word an encoder makes. -/
def encodedWord (g : BaseGraph) (kb iLs p : Nat) (c : Word z XorByte) : Word z XorByte :=
  solveAll (Function.update c kb (pivotColumn g kb iLs p c)) (steps g kb iLs)

/-- The information and nothing else yet. -/
def start (code : NrLdpcCode) (info : Bytes) : Bytes := info ++ List.replicate (code.nFull - code.k) 0

/-- A graph's table as an encoder needs it, for one lifting set. -/
structure Sound (g : BaseGraph) (kb iLs : Nat) : Prop where
  wide : kb + g.rows = g.cols
  tall : 4 ≤ g.rows
  inside : ∀ row ∈ g.tableRows iLs, ∀ e ∈ row, e.1 < g.cols
  pivot : ∃ s, Paired ((kb, s) :: (core g iLs).filter fun e => !decide (e.1 < kb))
  solves : ∀ s ∈ steps g kb iLs, Solves s
  order : ∀ row < 3, NrLdpcCode.solvable kb (g.tableRows iLs) (below (kb + 4) (kb + 1 + row)) =
    some (row, kb + 1 + row)

theorem graphs_sound {g : BaseGraph} {kb : Nat} (member : (g, kb) ∈ graphs) {iLs : Nat} (set_ : iLs < 8) :
    Sound g kb iLs where
  wide := (graphs_wide _ member).1
  tall := (graphs_wide _ member).2
  inside := graphs_inside _ member iLs set_
  pivot := have ⟨s, _, paired⟩ := graphs_pivot _ member iLs set_; ⟨s, paired⟩
  solves := graphs_solves _ member iLs set_
  order := graphs_order _ member iLs set_

/-- Encoding, by columns. -/
theorem Built.encode (built : Built g kb iLs z code) (sound : Sound g kb iLs) {info : Bytes}
    (size : info.length = code.k) :
    ∃ cw, code.encode info = .ok cw ∧ cw.length = g.cols * z ∧
      view z cw = encodedWord g kb iLs code.p1Shift (view z (start code info)) ∧
      (code.solveCore (setBlock z (start code info) kb (code.firstParity (start code info)))).2 =
        List.replicate (kb + 4) true := by
  have wide := sound.wide
  have tall := sound.tall
  have first : (start code info).length = g.cols * z := by
    have fits : kb * z ≤ g.cols * z := Nat.mul_le_mul_right z (by omega)
    rw [start, List.length_append, List.length_replicate, size, built.k, built.nFull]
    omega
  obtain ⟨size₁, parity⟩ := built.firstParity sound.inside tall first
  obtain ⟨length₁, pivot⟩ := view_setBlock (z := z) kb (first ▸ column_le (by omega)) size₁
  obtain ⟨length₂, solved, known⟩ := built.solveCore sound.inside wide tall sound.order (length₁.trans first)
  obtain ⟨cw, run, length₃, extended⟩ := built.extend sound.inside wide (n := g.rows - 4) (by omega) length₂
  refine ⟨cw, ?_, length₃, ?_, known⟩
  · have all : (List.range (g.cols * z / z)).map (fun col => decide (col < kb + 4) &&
        (code.solveCore (setBlock z (start code info) kb (code.firstParity (start code info)))).2.getD col false) =
        below g.cols (kb + 4) := by
      rw [Nat.mul_div_cancel _ built.positive, known]
      refine List.map_congr_left fun col _ => ?_
      by_cases low : col < kb + 4
      · simp [low]
      · simp [low]
    unfold NrLdpcCode.encode
    rw [if_neg (not_not.mpr size)]
    simp only [built.size, built.info, built.rows, built.nFull]
    unfold start at all run
    simp only [built.nFull] at all run
    rw [all, run]
  · rw [extended, solved, pivot, parity]
    exact (solveAll_append ..).symm

/-! ### The single shift -/

/-- The first unit vector. -/
def unit (z : Nat) : Bytes := (List.replicate z 0).set 0 1

theorem viewBlock_unit (r : Fin z) : viewBlock z (unit z) r = if r.val = 0 then ⟨1⟩ else 0 := by
  refine XorByte.ext ?_
  simp only [viewBlock, unit, List.getD_eq_getElem?_getD, List.getElem?_set, List.length_replicate]
  by_cases first : r.val = 0
  · rw [if_pos first.symm, if_pos (by have := r.pos; omega), if_pos first]
    rfl
  · rw [if_neg (Ne.symm first), if_neg first, List.getElem?_replicate_of_lt r.isLt]
    rfl

theorem viewBlock_ext {a b : Bytes} (length : a.length = z) (length' : b.length = z)
    (same : ∀ r, viewBlock z a r = viewBlock z b r) : a = b := by
  refine List.ext_getElem (length.trans length'.symm) fun r inside inside' => ?_
  have here := congrArg XorByte.byte (same ⟨r, length ▸ inside⟩)
  simp only [viewBlock] at here
  rwa [List.getD_eq_getElem _ _ inside, List.getD_eq_getElem _ _ inside'] at here

/-- The core rows' first parity column is one shift of the unit vector. -/
theorem Built.summedColumn (built : Built g kb iLs z code) {s : Nat}
    (paired : Paired ((kb, s) :: (core g iLs).filter fun e => !decide (e.1 < kb))) :
    code.summedColumn = rotateInto (List.replicate z 0) (unit z) s := by
  have zeros : (List.replicate z (0 : UInt8)).length = z := List.length_replicate
  have unit_ : (unit z).length = z := by simp [unit]
  have entries : (code.blockRows.take 4).flatten = (core g iLs).map fun e => (e.1, e.2 % z) := by
    rw [built.blockRows, ← List.map_take, core, List.map_flatten]
  obtain ⟨size, sum⟩ := @foldl_rotateInto z (fun _ => unit z) ((core g iLs).map fun e => (e.1, e.2 % z))
    (fun col => decide (col = kb)) (fun _ _ => unit_) _ zeros
  have folded : code.summedColumn = ((core g iLs).map fun e => (e.1, e.2 % z)).foldl
      (fun acc e => if decide (e.1 = kb) = true then rotateInto acc (unit z) e.2 else acc) (List.replicate z 0) := by
    unfold NrLdpcCode.summedColumn
    rw [← entries, List.foldl_flatten, built.size, built.info]
    simp only [decide_eq_true_eq]
    rfl
  have pivot : Paired ((kb, s) :: (core g iLs).filter fun e => decide (e.1 = kb)) := by
    have own := paired.filter fun e => decide (e.1 = kb)
    rw [List.filter_cons_of_pos (by simp), List.filter_filter] at own
    convert own using 3
    funext e
    by_cases here : e.1 = kb <;> simp [here]
  rw [folded]
  refine viewBlock_ext size ((length_rotateInto ..).trans zeros) fun r => ?_
  rw [sum r, viewBlock_rotateInto zeros unit_, viewBlock_zero, zero_add, zero_add, List.filter_map, check_mod]
  exact check_unpaired XorByte.double pivot _ r

/-- Its first nonzero place gives the shift back. -/
theorem Built.computeP1Shift (built : Built g kb iLs z code) {s : Nat}
    (paired : Paired ((kb, s) :: (core g iLs).filter fun e => !decide (e.1 < kb))) :
    code.computeP1Shift = some (s % z) := by
  have positive := built.positive
  have small := Nat.mod_lt s positive
  have size : code.summedColumn.length = z := by
    rw [built.summedColumn paired, length_rotateInto, List.length_replicate]
  have places (r : Nat) (inside : r < code.summedColumn.length) :
      code.summedColumn[r] = if (r + s) % z = 0 then 1 else 0 := by
    have below : r < z := size ▸ inside
    have here : viewBlock z code.summedColumn ⟨r, below⟩ =
        if (r + s) % z = 0 then ⟨1⟩ else 0 := by
      rw [built.summedColumn paired, viewBlock_rotateInto List.length_replicate (by simp [unit]), viewBlock_zero,
        zero_add, viewBlock_unit]
      rfl
    have byte := congrArg XorByte.byte here
    simp only [viewBlock] at byte
    rw [List.getD_eq_getElem _ _ inside] at byte
    rw [byte]
    split <;> rfl
  have zero_iff (r : Nat) (below : r < z) : (r + s) % z = 0 ↔ r = (z - s % z) % z := by
    have mod : (r + s) % z = (r + s % z) % z := by simp
    rw [mod]
    by_cases none_ : s % z = 0
    · rw [none_, Nat.sub_zero, Nat.mod_self, Nat.add_zero, Nat.mod_eq_of_lt below]
    · rw [Nat.mod_eq_of_lt (show z - s % z < z by omega)]
      by_cases wraps : r + s % z < z
      · rw [Nat.mod_eq_of_lt wraps]
        omega
      · rw [Nat.mod_eq_sub_mod (by omega), Nat.mod_eq_of_lt (by omega)]
        omega
  have first : code.summedColumn.findIdx? (· ≠ 0) = some ((z - s % z) % z) := by
    have inside : (z - s % z) % z < code.summedColumn.length := by
      rw [size]
      exact Nat.mod_lt _ positive
    refine List.findIdx?_eq_some_iff_getElem.mpr ⟨inside, ?_, fun j before => ?_⟩
    · rw [places _ inside, if_pos ((zero_iff _ (size ▸ inside)).mpr rfl)]
      decide
    · rw [places j (by omega), if_neg fun zero => ?_]
      · decide
      · have := (zero_iff j (by omega)).mp zero
        omega
  unfold NrLdpcCode.computeP1Shift
  rw [first, built.size, Option.map_some]
  by_cases none_ : s % z = 0
  · rw [none_, Nat.sub_zero, Nat.mod_self, Nat.sub_zero, Nat.mod_self]
  · rw [Nat.mod_eq_of_lt (show z - s % z < z by omega), Nat.mod_eq_of_lt (by omega)]
    congr 1
    omega

/-! ### Codewords -/

theorem syndromeOk_iff (built : Built g kb iLs z code) (inside : ∀ row ∈ g.tableRows iLs, ∀ e ∈ row, e.1 < g.cols)
    {cw : Bytes} (length : cw.length = g.cols * z) :
    code.syndromeOk cw = .ok true ↔ ∀ row < g.rows, ∀ r, check ((g.tableRows iLs).getD row []) (view z cw) r = 0 := by
  have each (row : Nat) : (code.rowSum cw row fun _ => true).all (· = 0) = true ↔
      ∀ r, check ((g.tableRows iLs).getD row []) (view z cw) r = 0 := by
    obtain ⟨size, sum⟩ := built.rowSum inside length row fun _ => true
    simp only [List.filter_true] at sum
    simp only [List.all_eq_true, decide_eq_true_eq, ← sum]
    constructor
    · intro all r
      refine XorByte.ext (all _ ?_)
      simp only [viewBlock]
      rw [List.getD_eq_getElem _ _ (by rw [size]; exact r.isLt)]
      exact List.getElem_mem _
    · intro all b member
      obtain ⟨r, here, rfl⟩ := List.mem_iff_getElem.mp member
      have zero := congrArg XorByte.byte (all ⟨r, size ▸ here⟩)
      simp only [viewBlock] at zero
      rwa [List.getD_eq_getElem _ _ here] at zero
  unfold NrLdpcCode.syndromeOk
  rw [if_neg (by rw [length, built.nFull]; simp), built.rows, Except.ok.injEq, List.all_eq_true]
  simp only [List.mem_range, each]

theorem steps_ascending (g : BaseGraph) (kb iLs : Nat) : (steps g kb iLs).Pairwise fun s t => s.2 < t.2 := by
  unfold steps
  refine List.pairwise_append.mpr ⟨?_, ?_, ?_⟩
  · exact List.pairwise_map.mpr (List.pairwise_lt_range.imp fun less => Nat.add_lt_add_left less (kb + 1))
  · exact List.pairwise_map.mpr ((List.pairwise_lt_range' 1).imp fun less => Nat.add_lt_add_left less kb)
  · intro s first t later
    obtain ⟨row, few, rfl⟩ := List.mem_map.mp first
    obtain ⟨row', more, rfl⟩ := List.mem_map.mp later
    have := List.mem_range.mp few
    have := (List.mem_range'_1.mp more).1
    simp only
    omega

theorem steps_above {g : BaseGraph} {kb iLs : Nat} : ∀ s ∈ steps g kb iLs, kb < s.2 := by
  intro s member
  rcases List.mem_append.mp member with first | later
  · obtain ⟨row, _, rfl⟩ := List.mem_map.mp first
    simp only
    omega
  · obtain ⟨row, more, rfl⟩ := List.mem_map.mp later
    have := (List.mem_range'_1.mp more).1
    simp only
    omega

theorem encodedWord_info {p col : Nat} (info : col < kb) (c : Word z XorByte) :
    encodedWord g kb iLs p c col = c col := by
  unfold encodedWord
  rw [solveAll_other (fun s member => by have := steps_above s member; omega), Function.update_of_ne info.ne]

/-- Every row of the table holds of the word an encoder makes. -/
theorem encodedWord_holds (sound : Sound g kb iLs) {p s : Nat} (same : p % z = s % z)
    (paired : Paired ((kb, s) :: (core g iLs).filter fun e => !decide (e.1 < kb))) (c : Word z XorByte)
    {row : Nat} (inside : row < g.rows) (r : Fin z) :
    check ((g.tableRows iLs).getD row []) (encodedWord g kb iLs p c) r = 0 := by
  have solved := solveAll_holds XorByte.double sound.solves (steps_ascending g kb iLs)
    (Function.update c kb (pivotColumn g kb iLs p c))
  have early (row : Nat) (few : row < 3) : check ((g.tableRows iLs).getD row []) (encodedWord g kb iLs p c) r = 0 :=
    solved _ (List.mem_append_left _ (List.mem_map.mpr ⟨row, List.mem_range.mpr few, rfl⟩)) r
  rcases Nat.lt_or_ge row 3 with few | more
  · exact early row few
  rcases Nat.lt_or_eq_of_le more with later | third
  · have among : row ∈ List.range' 4 (g.rows - 4) := List.mem_range'_1.mpr ⟨later, by omega⟩
    exact solved _ (List.mem_append_right _ (List.mem_map.mpr ⟨row, among, rfl⟩)) r
  · -- the fourth row is what the first three leave of the core's sum
    subst third
    have before : check ((core g iLs).filter fun e => decide (e.1 < kb)) (encodedWord g kb iLs p c) r =
        check ((core g iLs).filter fun e => decide (e.1 < kb)) c r :=
      check_congr (fun e member => encodedWord_info (of_decide_eq_true (List.mem_filter.mp member).2) c) r
    have pivot : encodedWord g kb iLs p c kb = pivotColumn g kb iLs p c := by
      unfold encodedWord
      rw [solveAll_other (fun s member => by have := steps_above s member; omega), Function.update_self]
    have total : check (core g iLs) (encodedWord g kb iLs p c) r = 0 := by
      rw [check_split (fun e => decide (e.1 < kb)), before, check_unpaired XorByte.double paired, pivot]
      unfold pivotColumn
      rw [same, shift_back, XorByte.double]
    rw [core, ← check_flatten, ← range_core sound.tall, List.map_map] at total
    have four : List.range 4 = [0, 1, 2, 3] := rfl
    rw [four] at total
    simp only [List.map_cons, List.map_nil, Function.comp_def, List.sum_cons, List.sum_nil, early 0 (by decide),
      early 1 (by decide), early 2 (by decide), zero_add, add_zero] at total
    exact total

theorem encodedWord_add (p : Nat) (c d : Word z XorByte) :
    encodedWord g kb iLs p (c + d) = encodedWord g kb iLs p c + encodedWord g kb iLs p d := by
  have pivot : pivotColumn g kb iLs p (c + d) = pivotColumn g kb iLs p c + pivotColumn g kb iLs p d :=
    funext fun r => check_add ..
  unfold encodedWord
  rw [pivot, Function.update_add, solveAll_add]

theorem encodedWord_mem (H : AddSubgroup XorByte) {c : Word z XorByte} (all : ∀ col r, c col r ∈ H) (p col : Nat)
    (r : Fin z) : encodedWord g kb iLs p c col r ∈ H := by
  refine solveAll_mem H _ (fun col r => ?_) col r
  by_cases here : col = kb
  · subst here
    rw [Function.update_self]
    exact check_mem H all _
  · rw [Function.update_of_ne here]
    exact all col r

theorem start_xorBytes (code : NrLdpcCode) {a b : Bytes} (same : a.length = b.length) :
    start code (xorBytes a b) = xorBytes (start code a) (start code b) := by
  unfold start xorBytes
  rw [List.zipWith_append same, List.zipWith_replicate, Nat.min_self]
  rfl

/-- The information stands first in its word. -/
theorem take_encoded (built : Built g kb iLs z code) (wide : kb ≤ g.cols) {info cw : Bytes} {p : Nat}
    (size : info.length = code.k) (length : cw.length = g.cols * z)
    (encoded : view z cw = encodedWord g kb iLs p (view z (start code info))) : cw.take code.k = info := by
  have fits : kb * z ≤ g.cols * z := Nat.mul_le_mul_right z wide
  refine List.ext_getElem (by rw [List.length_take, size, built.k, length]; omega) fun i inside inside' => ?_
  have column : i / z < kb := Nat.div_lt_of_lt_mul (by rw [Nat.mul_comm, ← built.k, ← size]; exact inside')
  have here := congrFun (congrFun encoded (i / z)) ⟨i % z, Nat.mod_lt i built.positive⟩
  rw [encodedWord_info column] at here
  have byte := congrArg XorByte.byte here
  have whole : i < cw.length := by
    rw [List.length_take] at inside
    omega
  simp only [view, Nat.div_add_mod'] at byte
  rw [List.getD_eq_getElem _ _ whole, start, List.getD_append _ _ _ _ inside', List.getD_eq_getElem _ _ inside'] at byte
  rwa [List.getElem_take]

/-! ### Every base graph and lifting size -/

/-- A lifting size has its set. -/
theorem liftingSetIndex_of_mem {z : Nat} (member : z ∈ allLiftingSizes) : ∃ iLs < 8, liftingSetIndex z = some iLs := by
  have among : z ∈ liftingSets.flatten := (List.mem_insertionSort (· ≤ ·)).mp member
  obtain ⟨set, known, inside⟩ := List.mem_flatten.mp among
  unfold liftingSetIndex
  cases found : liftingSets.findIdx? fun set => z ∈ set with
  | none =>
    have no := List.findIdx?_eq_none_iff.mp found set known
    simp [inside] at no
  | some iLs =>
    obtain ⟨small, _⟩ := List.findIdx?_eq_some_iff_getElem.mp found
    exact ⟨iLs, small, rfl⟩

/-- The information columns of a base graph. -/
def infoColumns (bg : Nat) : Nat := if bg = 1 then 22 else 10

theorem graphs_of_number {bg : Nat} (known : bg = 1 ∨ bg = 2) :
    ∃ g, baseGraph bg = some g ∧ (g, infoColumns bg) ∈ graphs := by
  rcases known with rfl | rfl
  · exact ⟨bg1, rfl, .head _⟩
  · exact ⟨bg2, rfl, .tail _ (.head _)⟩

/-- A code is built from its graph's table, and its shift is found. -/
theorem new_built {bg z : Nat} (known : bg = 1 ∨ bg = 2) (member : z ∈ allLiftingSizes) :
    ∃ g iLs s code, NrLdpcCode.new bg z = .ok code ∧ Built g (infoColumns bg) iLs z code ∧
      Sound g (infoColumns bg) iLs ∧ code.p1Shift = s % z ∧
      Paired ((infoColumns bg, s) :: (core g iLs).filter fun e => !decide (e.1 < infoColumns bg)) := by
  obtain ⟨g, table, listed⟩ := graphs_of_number known
  obtain ⟨iLs, small, set_⟩ := liftingSetIndex_of_mem member
  have positive := liftingSetIndex_positive set_
  have sound := graphs_sound listed small
  obtain ⟨s, paired⟩ := sound.pivot
  have built : Built g (infoColumns bg) iLs z (NrLdpcCode.blank bg z g iLs) :=
    ⟨positive, rfl, rfl, rfl, rfl, rfl, rfl⟩
  refine ⟨g, iLs, s, { NrLdpcCode.blank bg z g iLs with p1Shift := s % z }, ?_,
    ⟨positive, rfl, rfl, rfl, rfl, rfl, rfl⟩, sound, rfl, paired⟩
  unfold NrLdpcCode.new
  rw [table, set_]
  simp only [built.computeP1Shift paired, Option.getD_some]

/-- Encoding with a built code: a codeword that starts with the information. -/
theorem Built.encode_holds (built : Built g kb iLs z code) (sound : Sound g kb iLs) {s : Nat}
    (shift_ : code.p1Shift = s % z) (paired : Paired ((kb, s) :: (core g iLs).filter fun e => !decide (e.1 < kb)))
    {info : Bytes} (size : info.length = code.k) :
    ∃ cw, code.encode info = .ok cw ∧ cw.length = code.nFull ∧ cw.take code.k = info ∧
      code.syndromeOk cw = .ok true ∧ ((∀ b ∈ info, b = 0 ∨ b = 1) → ∀ b ∈ cw, b = 0 ∨ b = 1) := by
  obtain ⟨cw, run, length, encoded, _⟩ := built.encode sound size
  have wide := sound.wide
  refine ⟨cw, run, length.trans built.nFull.symm, take_encoded built (by omega) size length encoded, ?_, ?_⟩
  · refine (syndromeOk_iff built sound.inside length).mpr fun row inside r => ?_
    rw [encoded]
    exact encodedWord_holds sound (by rw [shift_, Nat.mod_mod]) paired _ inside r
  · intro bits b member
    have started : ∀ col r, view z (start code info) col r ∈ XorByte.bits := by
      intro col r
      by_cases inside : col * z + r < (start code info).length
      · have among : (start code info)[col * z + r] ∈ start code info := List.getElem_mem inside
        have bit : (start code info)[col * z + r] = 0 ∨ (start code info)[col * z + r] = 1 := by
          rcases List.mem_append.mp among with front | back
          · exact bits _ front
          · exact .inl (List.eq_of_mem_replicate back)
        simp only [view]
        rwa [List.getD_eq_getElem _ _ inside]
      · simp only [view]
        rw [List.getD_eq_default _ _ (Nat.le_of_not_lt inside)]
        exact .inl rfl
    obtain ⟨i, inside, rfl⟩ := List.mem_iff_getElem.mp member
    have bit := @encodedWord_mem z g kb iLs XorByte.bits _ started code.p1Shift (i / z)
      ⟨i % z, Nat.mod_lt i built.positive⟩
    rw [← encoded] at bit
    simp only [view, Nat.div_add_mod'] at bit
    rwa [List.getD_eq_getElem _ _ inside] at bit

theorem Built.encode_xorBytes (built : Built g kb iLs z code) (sound : Sound g kb iLs) {a b : Bytes}
    (size : a.length = code.k) (size' : b.length = code.k) :
    ∃ cw cw', code.encode a = .ok cw ∧ code.encode b = .ok cw' ∧ code.encode (xorBytes a b) = .ok (xorBytes cw cw') := by
  obtain ⟨cw, run, length, encoded, _⟩ := built.encode sound size
  obtain ⟨cw', run', length', encoded', _⟩ := built.encode sound size'
  have same : a.length = b.length := size.trans size'.symm
  have size'' : (xorBytes a b).length = code.k := by simp [xorBytes, size, size']
  obtain ⟨sum, run'', length'', encoded'', _⟩ := built.encode sound size''
  refine ⟨cw, cw', run, run', ?_⟩
  rw [run'']
  refine congrArg Except.ok (view_injective built.positive length'' (by simp [xorBytes, length, length']) ?_)
  have started : (start code a).length = (start code b).length := by simp [start, same]
  rw [encoded'', start_xorBytes code same, view_xorBytes started, encodedWord_add, ← encoded, ← encoded',
    view_xorBytes (length.trans length'.symm)]

/-- Every encoded word is a codeword, and the encoder is linear. -/
theorem encode_codeword (bg z : Nat) (known : bg = 1 ∨ bg = 2) (member : z ∈ allLiftingSizes) :
    ∃ code, NrLdpcCode.new bg z = .ok code ∧ code.z = z ∧ code.k = code.kb * z ∧
      (∃ s < z, code.summedColumn = rotateInto (List.replicate z 0) ((List.replicate z 0).set 0 1) s ∧
        code.computeP1Shift = some s ∧ code.p1Shift = s) ∧
      (∀ info : Bytes, info.length = code.k →
        (code.solveCore (setBlock z (info ++ List.replicate (code.nFull - code.k) 0) code.kb
          (code.firstParity (info ++ List.replicate (code.nFull - code.k) 0)))).2 = List.replicate (code.kb + 4) true ∧
        ∃ cw, code.encode info = .ok cw ∧ cw.length = code.nFull ∧ cw.take code.k = info ∧
          code.syndromeOk cw = .ok true ∧ ((∀ b ∈ info, b = 0 ∨ b = 1) → ∀ b ∈ cw, b = 0 ∨ b = 1)) ∧
      ∀ a b : Bytes, a.length = code.k → b.length = code.k → ∃ cw cw', code.encode a = .ok cw ∧
        code.encode b = .ok cw' ∧ code.encode (xorBytes a b) = .ok (xorBytes cw cw') := by
  obtain ⟨g, iLs, s, code, made, built, sound, shift_, paired⟩ := new_built known member
  have small := Nat.mod_lt s built.positive
  refine ⟨code, made, built.size, by rw [built.k, built.info], ⟨s % z, small, ?_, built.computeP1Shift paired, shift_⟩,
    fun info size => ⟨?_, built.encode_holds sound shift_ paired size⟩,
    fun a b size size' => built.encode_xorBytes sound size size'⟩
  · rw [built.summedColumn paired]
    refine viewBlock_ext ((length_rotateInto ..).trans List.length_replicate)
      ((length_rotateInto ..).trans List.length_replicate) fun r => ?_
    rw [viewBlock_rotateInto List.length_replicate (by simp [unit]),
      viewBlock_rotateInto List.length_replicate (by simp), shift_mod]
    rfl
  · obtain ⟨_, _, _, _, known⟩ := built.encode sound size
    rw [built.info]
    exact known

/-- The second graph at the size of 208. -/
theorem encode_codeword_208 : ∃ code, NrLdpcCode.new 2 208 = .ok code ∧ code.k = code.kb * 208 := by
  obtain ⟨code, made, _, k, _⟩ := encode_codeword 2 208 (.inr rfl) (by decide)
  exact ⟨code, made, k⟩

end AetherHF.Fec
