import AetherHF.Base.Lists
import AetherHF.Base.MinSum
import AetherHF.Fec.Codeword

/-! Layered normalised min-sum decoding, in exact arithmetic. The signs of a codeword turned, the decoder
does the same with them turned: every message and every posterior, layer by layer. -/
namespace AetherHF.Fec

open MinSum QuasiCyclic

/-- A posterior for each bit, and for each block row the messages of its entries' checks. -/
structure Decoder (K : Type) where
  post : List K
  messages : List (List K)

structure Decoded where
  bits : Bytes
  /-- Whether every parity check was satisfied when decoding stopped. -/
  converged : Bool
  iterations : Nat
  deriving DecidableEq

variable {K : Type} [Field K]

def hard [LinearOrder K] (post : List K) : Bytes := post.map fun v => if v < 0 then 1 else 0

namespace NrLdpcCode

variable (code : NrLdpcCode)

/-- The bit an entry has in its row's check `r`. -/
def bitAt (e : Nat × Nat) (r : Nat) : Nat := e.1 * code.z + (r + e.2) % code.z

def row (i : Nat) : List (Nat × Nat) := code.blockRows.getD i []

/-- Nothing said yet. -/
def startDecoder (llr : List K) : Decoder K := ⟨llr, code.blockRows.map fun row => List.replicate (row.length * code.z) 0⟩

/-- What the bits of a check say, without what the check said of them before. -/
def incoming (s : Decoder K) (i r : Nat) : List K :=
  (code.row i).mapIdx fun edge e => s.post.getD (code.bitAt e r) 0 - (s.messages.getD i []).getD (edge * code.z + r) 0

def update (i r edge : Nat) (e : Nat × Nat) (value c2v : K) (s : Decoder K) : Decoder K where
  post := s.post.set (code.bitAt e r) (value + c2v)
  messages := s.messages.set i ((s.messages.getD i []).set (edge * code.z + r) c2v)

section
variable [LinearOrder K]

/-- A check's messages, and its bits' posteriors with them. -/
def checkNode (alpha : K) (i r : Nat) (values : List K) (s : Decoder K) : Decoder K :=
  (code.row i).zipIdx.foldl (fun s e =>
    code.update i r e.2 e.1 (values.getD e.2 0) (message alpha (scan values) e.2 (values.getD e.2 0)) s) s

/-- A block row: its checks read the posteriors as they stood before it. -/
def layer (alpha : K) (s : Decoder K) (i : Nat) : Decoder K :=
  (List.range code.z).foldl (fun s' r => code.checkNode alpha i r (code.incoming s i r) s') s

/-- The first rows, one after another. -/
def layers (alpha : K) (n : Nat) (s : Decoder K) : Decoder K := (List.range n).foldl (code.layer alpha) s

/-- An iteration: every row once. -/
def iteration (alpha : K) (s : Decoder K) : Decoder K := code.layers alpha code.blockRows.length s

/-- Iterations until every check is satisfied, or there are no more to run. -/
def decodeFrom (alpha : K) : Nat → Nat → Decoder K → Except FecError Decoded
  | 0, iterations, s => .ok ⟨hard s.post, false, iterations⟩
  | left + 1, iterations, s => do
    let s := code.iteration alpha s
    if ← code.syndromeOk (hard s.post) then .ok ⟨hard s.post, true, iterations + 1⟩
    else decodeFrom alpha left (iterations + 1) s

def decode (llr : List K) (maxIter : Nat) (alpha : K) : Except FecError Decoded :=
  if llr.length ≠ code.nFull then .error (.badLength code.nFull llr.length)
  else code.decodeFrom alpha maxIter 0 (code.startDecoder llr)

end

end NrLdpcCode

/-! ### Signs turned -/

variable {code : NrLdpcCode} {sign : Nat → K}

/-- The bit of a place in a row's messages. -/
def NrLdpcCode.bitOf (code : NrLdpcCode) (i place : Nat) : Nat :=
  code.bitAt ((code.row i).getD (place / code.z) (0, 0)) (place % code.z)

/-- Every posterior and message with its bit's sign. -/
def Decoder.turn (code : NrLdpcCode) (sign : Nat → K) (s : Decoder K) : Decoder K where
  post := s.post.mapIdx fun bit x => sign bit * x
  messages := s.messages.mapIdx fun i messages => messages.mapIdx fun place x => sign (code.bitOf i place) * x

/-- Signs that every check multiplies to one. -/
structure Even (code : NrLdpcCode) (sign : Nat → K) : Prop where
  signs : ∀ bit, sign bit = 1 ∨ sign bit = -1
  even : ∀ i, ∀ r < code.z, ((code.row i).map fun e => sign (code.bitAt e r)).prod = 1

theorem bitOf_eq {i r edge : Nat} {e : Nat × Nat} (inside : r < code.z) (at_ : (code.row i)[edge]? = some e) :
    code.bitOf i (edge * code.z + r) = code.bitAt e r := by
  have positive : 0 < code.z := Nat.zero_lt_of_lt inside
  have quotient : (edge * code.z + r) / code.z = edge := by
    rw [Nat.add_comm, Nat.add_mul_div_right _ _ positive, Nat.div_eq_of_lt inside, Nat.zero_add]
  have remainder : (edge * code.z + r) % code.z = r := by
    rw [Nat.add_comm, Nat.add_mul_mod_self_right, Nat.mod_eq_of_lt inside]
  rw [NrLdpcCode.bitOf, quotient, remainder, List.getD_eq_getElem?_getD, at_, Option.getD_some]

theorem turn_post (s : Decoder K) (bit : Nat) : (s.turn code sign).post.getD bit 0 = sign bit * s.post.getD bit 0 :=
  getD_mapIdx (fun bit x => sign bit * x) (mul_zero _) _

theorem turn_row (s : Decoder K) (i : Nat) : (s.turn code sign).messages.getD i [] =
    (s.messages.getD i []).mapIdx fun place x => sign (code.bitOf i place) * x :=
  getD_mapIdx (d := []) (fun i (messages : List K) => messages.mapIdx fun place x => sign (code.bitOf i place) * x) rfl _

theorem turn_messages (s : Decoder K) {i r edge : Nat} {e : Nat × Nat} (inside : r < code.z)
    (at_ : (code.row i)[edge]? = some e) : ((s.turn code sign).messages.getD i []).getD (edge * code.z + r) 0 =
      sign (code.bitAt e r) * (s.messages.getD i []).getD (edge * code.z + r) 0 := by
  rw [turn_row, getD_mapIdx (fun place x => sign (code.bitOf i place) * x) (mul_zero _), bitOf_eq inside at_]

/-- What a check reads, each value with its bit's sign. -/
def paired (code : NrLdpcCode) (sign : Nat → K) (s : Decoder K) (i r : Nat) : List (K × K) :=
  (code.row i).mapIdx fun edge e =>
    (sign (code.bitAt e r), s.post.getD (code.bitAt e r) 0 - (s.messages.getD i []).getD (edge * code.z + r) 0)

theorem paired_snd (s : Decoder K) (i r : Nat) : (paired code sign s i r).map Prod.snd = code.incoming s i r := by
  rw [paired, map_mapIdx]
  rfl

theorem paired_fst (s : Decoder K) (i r : Nat) :
    (paired code sign s i r).map Prod.fst = (code.row i).map fun e => sign (code.bitAt e r) := by
  rw [paired, map_mapIdx]
  refine List.ext_getElem (by simp) fun edge _ _ => ?_
  simp

/-- A check of the turned reads what it read, turned. -/
theorem incoming_turn (s : Decoder K) (i : Nat) {r : Nat} (inside : r < code.z) :
    code.incoming (s.turn code sign) i r = (paired code sign s i r).map fun p => p.1 * p.2 := by
  rw [paired, map_mapIdx, NrLdpcCode.incoming]
  refine List.ext_getElem (by simp) fun edge here _ => ?_
  have short : edge < (code.row i).length := by simpa using here
  simp only [List.getElem_mapIdx, turn_post, turn_messages s inside (List.getElem?_eq_getElem short), mul_sub]

theorem update_turn {i r edge : Nat} {e : Nat × Nat} (inside : r < code.z) (at_ : (code.row i)[edge]? = some e)
    (value c2v : K) (s : Decoder K) :
    code.update i r edge e (sign (code.bitAt e r) * value) (sign (code.bitAt e r) * c2v) (s.turn code sign) =
      (code.update i r edge e value c2v s).turn code sign := by
  unfold NrLdpcCode.update
  rw [turn_row]
  simp only [Decoder.turn, List.mapIdx_set, mul_add, bitOf_eq inside at_]

theorem startDecoder_turn (llr : List K) :
    code.startDecoder (llr.mapIdx fun bit x => sign bit * x) = (code.startDecoder llr).turn code sign := by
  unfold NrLdpcCode.startDecoder Decoder.turn
  congr 1
  refine List.ext_getElem (by simp) fun i here _ => ?_
  refine List.ext_getElem (by simp) fun place _ _ => ?_
  simp

section
variable [LinearOrder K] [IsStrictOrderedRing K]

/-- One row's checks, the posteriors and messages turned. -/
theorem layer_turn (even : Even code sign) (alpha : K) (s : Decoder K) (i : Nat) :
    code.layer alpha (s.turn code sign) i = (code.layer alpha s i).turn code sign := by
  refine foldl_seen (Decoder.turn code sign) (fun r member s' => ?_) s
  have inside := List.mem_range.mp member
  rw [incoming_turn s i inside]
  refine foldl_seen (Decoder.turn code sign) (fun e among s' => ?_) s'
  obtain ⟨e, edge⟩ := e
  have at_ : (code.row i)[edge]? = some e := List.mem_zipIdx_iff_getElem?.mp among
  have pair : (paired code sign s i r)[edge]? = some (sign (code.bitAt e r), (code.incoming s i r).getD edge 0) := by
    have values : (paired code sign s i r).map Prod.snd = code.incoming s i r := paired_snd s i r
    rw [← values, List.getD_eq_getElem?_getD, List.getElem?_map]
    have here : (paired code sign s i r)[edge]? = some (sign (code.bitAt e r),
        s.post.getD (code.bitAt e r) 0 - (s.messages.getD i []).getD (edge * code.z + r) 0) := by
      rw [paired, List.getElem?_mapIdx, at_]
      rfl
    rw [here]
    rfl
  have signs : ∀ p ∈ paired code sign s i r, p.1 = 1 ∨ p.1 = -1 := by
    intro p member
    obtain ⟨edge, inside, rfl⟩ := List.mem_mapIdx.mp member
    exact even.signs _
  have product : ((paired code sign s i r).map Prod.fst).prod = 1 := by
    rw [paired_fst]
    exact even.even i r inside
  have told := message_turned signs product alpha pair
  have value : ((paired code sign s i r).map fun p => p.1 * p.2).getD edge 0 =
      sign (code.bitAt e r) * (code.incoming s i r).getD edge 0 := by
    rw [List.getD_eq_getElem?_getD, List.getElem?_map, pair]
    rfl
  dsimp only
  rw [value, told, paired_snd]
  exact update_turn inside at_ _ _ s'

theorem layers_turn (even : Even code sign) (alpha : K) (n : Nat) (s : Decoder K) :
    code.layers alpha n (s.turn code sign) = (code.layers alpha n s).turn code sign :=
  foldl_seen (Decoder.turn code sign) (fun i _ s => layer_turn even alpha s i) s

theorem iterate_turn (even : Even code sign) (alpha : K) (n : Nat) (s : Decoder K) :
    (code.iteration alpha)^[n] (s.turn code sign) = ((code.iteration alpha)^[n] s).turn code sign := by
  induction n generalizing s with
  | zero => rfl
  | succ n ih => rw [Function.iterate_succ_apply, Function.iterate_succ_apply, ← ih, NrLdpcCode.iteration, layers_turn even,
      NrLdpcCode.iteration]

end

end AetherHF.Fec
