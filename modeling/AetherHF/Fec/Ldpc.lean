import Mathlib.Data.List.Sort
import AetherHF.Base.Text
import AetherHF.Fec.Tables

/-! The quasi-cyclic code of TS 38.212: the parity-check matrix is a base graph of blocks,
each zero or a cyclic shift, and applying a shift is a rotation. Bits are bytes, 0 or 1,
and the sum of two is their exclusive or. -/
namespace AetherHF.Fec

/-- Lifting sizes by set. -/
def liftingSets : List (List Nat) := [
  [2, 4, 8, 16, 32, 64, 128, 256],
  [3, 6, 12, 24, 48, 96, 192, 384],
  [5, 10, 20, 40, 80, 160, 320],
  [7, 14, 28, 56, 112, 224],
  [9, 18, 36, 72, 144, 288],
  [11, 22, 44, 88, 176, 352],
  [13, 26, 52, 104, 208],
  [15, 30, 60, 120, 240]]

/-- Every valid lifting size, ascending. -/
def allLiftingSizes : List Nat := liftingSets.flatten.insertionSort (· ≤ ·)

def liftingSetIndex (z : Nat) : Option Nat := liftingSets.findIdx? fun set => z ∈ set

theorem liftingSets_positive : ∀ set ∈ liftingSets, ∀ z ∈ set, 0 < z := by decide

theorem liftingSetIndex_positive {z iLs : Nat} (found : liftingSetIndex z = some iLs) : 0 < z := by
  obtain ⟨inside, member, _⟩ := List.findIdx?_eq_some_iff_getElem.mp found
  exact liftingSets_positive _ (List.getElem_mem inside) z (of_decide_eq_true member)

inductive FecError where
  | badBaseGraph (bg : Nat)
  | badLiftingSize (z : Nat)
  | badLength (expected got : Nat)
  | blockTooLong (infoLen max : Nat)
  | badRedundancyVersion (rv : Nat)
  deriving DecidableEq, Repr

structure NrLdpcCode where
  bgNumber : Nat
  z : Nat
  kb : Nat
  rows : Nat
  k : Nat
  nFull : Nat
  /-- The circular buffer's length. -/
  nCb : Nat
  /-- Per block row, the columns and shifts of its non-zero blocks. -/
  blockRows : List (List (Nat × Nat))
  /-- The shift of parity column `kb` once block rows 0 to 3 are summed. -/
  p1Shift : Nat
  deriving DecidableEq

/-- Add a block, rotated. -/
def rotateInto (dst src : Bytes) (shift : Nat) : Bytes :=
  dst.mapIdx fun r slot => slot ^^^ src.getD ((r + shift) % src.length) 0

/-- The block of a column. -/
def blockAt (z : Nat) (blocks : Bytes) (col : Nat) : Bytes := (blocks.drop (col * z)).take z

/-- A column overwritten. -/
def setBlock (z : Nat) (blocks : Bytes) (col : Nat) (value : Bytes) : Bytes :=
  blocks.take (col * z) ++ value ++ blocks.drop ((col + 1) * z)

def xorBytes (a b : Bytes) : Bytes := List.zipWith (· ^^^ ·) a b

/-- The graph of a number. -/
def baseGraph : Nat → Option BaseGraph
  | 1 => some bg1
  | 2 => some bg2
  | _ => none

/-- A graph's rows for a lifting set, the shifts as the table has them. -/
def BaseGraph.tableRows (g : BaseGraph) (iLs : Nat) : List (List (Nat × Nat)) :=
  (List.range g.rows).map fun row =>
    (g.entries.filter fun e => e.1 = row).map fun e => (e.2.1, e.2.2.getD iLs 0)

namespace NrLdpcCode

variable (code : NrLdpcCode)

/-- Column `kb` of block rows 0 to 3, summed, times the first unit vector. -/
def summedColumn : Bytes :=
  (code.blockRows.take 4).foldl (fun acc row => row.foldl (fun acc e =>
    if e.1 = code.kb then rotateInto acc ((List.replicate code.z 0).set 0 1) e.2 else acc) acc)
    (List.replicate code.z 0)

/-- The single shift the summed column is; `none` where the source panics. -/
def computeP1Shift : Option Nat :=
  (code.summedColumn.findIdx? (· ≠ 0)).map fun position => (code.z - position) % code.z

/-- The code before its shift is found. -/
def blank (bg z : Nat) (g : BaseGraph) (iLs : Nat) : NrLdpcCode where
  bgNumber := bg
  z
  kb := if bg = 1 then 22 else 10
  rows := g.rows
  k := (if bg = 1 then 22 else 10) * z
  nFull := g.cols * z
  nCb := (g.cols - 2) * z
  blockRows := (g.tableRows iLs).map fun row => row.map fun e => (e.1, e.2 % z)
  p1Shift := 0

/-- Build the code for a base graph and lifting size. -/
def new (bg z : Nat) : Except FecError NrLdpcCode :=
  match baseGraph bg with
  | none => .error (.badBaseGraph bg)
  | some g =>
    match liftingSetIndex z with
    | none => .error (.badLiftingSize z)
    | some iLs =>
      let code := blank bg z g iLs
      .ok { code with p1Shift := code.computeP1Shift.getD 0 }

theorem new_ok {bg z : Nat} {code : NrLdpcCode} (made : new bg z = .ok code) :
    ∃ g iLs p, baseGraph bg = some g ∧ liftingSetIndex z = some iLs ∧
      code = { blank bg z g iLs with p1Shift := p } := by
  unfold new at made
  cases table : baseGraph bg with
  | none => simp [table] at made
  | some g =>
    cases set_ : liftingSetIndex z with
    | none => simp [table, set_] at made
    | some iLs =>
      simp only [table, set_, Except.ok.injEq] at made
      exact ⟨g, iLs, _, rfl, rfl, made.symm⟩

/-- The sum of a block row's entries whose columns are kept. -/
def rowSum (blocks : Bytes) (row : Nat) (keep : Nat → Bool) : Bytes :=
  (code.blockRows.getD row []).foldl (fun acc e =>
    if keep e.1 then rotateInto acc (blockAt code.z blocks e.1) e.2 else acc) (List.replicate code.z 0)

/-! ### Encoding -/

/-- The first parity block: rows 0 to 3 over the information columns, the shift undone. -/
def firstParity (cw : Bytes) : Bytes :=
  let s0123 := (List.range 4).foldl (fun acc row => xorBytes acc (code.rowSum cw row fun col => col < code.kb))
    (List.replicate code.z 0)
  (List.range code.z).map fun r => s0123.getD ((r + code.z - code.p1Shift % code.z) % code.z) 0

/-- A core row's columns not known yet. -/
def unknown (kb : Nat) (row : List (Nat × Nat)) (known : List Bool) : List Nat :=
  (row.map Prod.fst).filter fun col => col < kb + 4 && !known.getD col false

/-- The first core row with one column unknown, and the column. -/
def solvable (kb : Nat) (rows : List (List (Nat × Nat))) (known : List Bool) : Option (Nat × Nat) :=
  (List.range 4).findSome? fun row => match unknown kb (rows.getD row []) known with
    | [target] => some (row, target)
    | _ => none

/-- One pass over the core rows: the first that can be solved is. -/
def pass (state : Bytes × List Bool) : Bytes × List Bool :=
  match solvable code.kb code.blockRows state.2 with
  | some (row, target) =>
    let value := code.rowSum state.1 row fun col => col < code.kb + 4 && state.2.getD col false
    (setBlock code.z state.1 target value, state.2.set target true)
  | none => state

/-- The core parity blocks after the first, in three passes. -/
def solveCore (cw : Bytes) : Bytes × List Bool :=
  (List.range 3).foldl (fun state _ => code.pass state)
    (cw, (List.range (code.kb + 4)).map fun col => col < code.kb + 1)

/-- An extension row gives the block of its own column. -/
def extend (state : Bytes × List Bool) (row : Nat) : Bytes × List Bool :=
  let value := code.rowSum state.1 row fun col => state.2.getD col false
  (setBlock code.z state.1 (code.kb + row) value, state.2.set (code.kb + row) true)

/-- Systematic encoding of the information bits. -/
def encode (info : Bytes) : Except FecError Bytes :=
  if info.length ≠ code.k then .error (.badLength code.k info.length)
  else
    let cw := info ++ List.replicate (code.nFull - code.k) 0
    let cw := setBlock code.z cw code.kb (code.firstParity cw)
    let (cw, known) := code.solveCore cw
    let knownAny := (List.range (code.nFull / code.z)).map fun col => col < code.kb + 4 && known.getD col false
    .ok ((List.range' 4 (code.rows - 4)).foldl code.extend (cw, knownAny)).1

/-- Whether every parity check is satisfied. -/
def syndromeOk (codeword : Bytes) : Except FecError Bool :=
  if codeword.length ≠ code.nFull then .error (.badLength code.nFull codeword.length)
  else .ok ((List.range code.rows).all fun row => (code.rowSum codeword row fun _ => true).all (· = 0))

end NrLdpcCode

end AetherHF.Fec
