import Axe.Core.Code
import Mathlib

/-! The command line of the client, which the argv system call lays out in a buffer of the guest: the pointers to the
arguments, a null pointer and the strings, each with its terminator. -/

namespace Axe

/-- Bytes are stored at positions relative to the start of the guest's buffer. -/
abbrev Stores := List (Int × BitVec 8)

structure CmdLine where
  arg : List (List (BitVec 8))
  minBufBytes : BitVec 32

namespace CmdLine

def setCmdLine (clientArgv : List (List (BitVec 8))) : CmdLine :=
  clientArgv.foldl (fun cmdLine arg =>
    ⟨cmdLine.arg ++ [arg], cmdLine.minBufBytes + BitVec.ofNat 32 (4 + arg.length + 1)⟩) ⟨[], 4⟩

def memcpy (pos : Int) : List (BitVec 8) → Stores
  | [] => []
  | byte :: bytes => (pos, byte) :: memcpy (pos + 1) bytes

def wordBytes (word : BitVec 32) : List (BitVec 8) :=
  [word.extractLsb' 0 8, word.extractLsb' 8 8, word.extractLsb' 16 8, word.extractLsb' 24 8]

def write32le (pos : Int) (word : BitVec 32) : Stores := memcpy pos (wordBytes word)

/-- The variables of the loop over the arguments, all of them of type `int`. -/
structure Layout where
  argvPos : BitVec 32
  strPos : BitVec 32
  stores : Stores

def putArg (clientBuf : BitVec 32) (layout : Layout) (arg : List (BitVec 8)) : Layout where
  argvPos := layout.argvPos + 4
  strPos := layout.strPos + BitVec.ofNat 32 arg.length + 1
  stores :=
    let argLen := BitVec.ofNat 32 arg.length
    layout.stores ++ write32le layout.argvPos.toInt (clientBuf + layout.strPos) ++
      -- The number of bytes to copy is the length converted to `size_t`.
      memcpy layout.strPos.toInt (arg.take (argLen.signExtend 64).toNat) ++ memcpy (layout.strPos + argLen).toInt [0]

/-- R0 and what is stored, for a buffer that `getRamBuffer` finds valid or not; nothing if the assertion fails. -/
def doOsCallArgv (cmdLine : CmdLine) (clientBuf bufBytes : BitVec 32) (valid : Bool) : Option (BitVec 32 × Stores) :=
  if bufBytes.toInt < cmdLine.minBufBytes.toInt then some (-2, [])
  else if !valid then some (-1, [])
  else
    let numArgs := BitVec.ofNat 32 cmdLine.arg.length
    let layout := (cmdLine.arg.take numArgs.toInt.toNat).foldl (putArg clientBuf) ⟨0, 4 * numArgs + 4, []⟩
    if layout.strPos = cmdLine.minBufBytes then
      some (numArgs, layout.stores ++ write32le layout.argvPos.toInt 0)
    else none

/-! ### What the guest is to find -/

def stringBytes (args : List (List (BitVec 8))) : Nat := (args.map (·.length + 1)).sum

def size (args : List (List (BitVec 8))) : Nat := 4 * args.length + 4 + stringBytes args

def after (mem : Int → BitVec 8) (stores : Stores) : Int → BitVec 8 :=
  stores.foldl (fun mem store => Function.update mem store.1 store.2) mem

def word (mem : Int → BitVec 8) (pos : Int) : BitVec 32 :=
  mem (pos + 3) ++ mem (pos + 2) ++ mem (pos + 1) ++ mem pos

def HasString (mem : Int → BitVec 8) (pos : Nat) (bytes : List (BitVec 8)) : Prop :=
  ∀ (k : Nat) (byte : BitVec 8), (bytes ++ [0])[k]? = some byte → mem (pos + k) = byte

/-- The arguments are in the buffer. The strings are at the positions `pos`. -/
structure Placed (clientBuf : BitVec 32) (args : List (List (BitVec 8))) (stores : Stores) (pos : Nat → Nat) :
    Prop where
  /-- Each byte of the part that is used is stored once, and no other byte is. -/
  stored : (stores.map Prod.fst).Perm ((List.range (size args)).map Nat.cast)
  pointer : ∀ mem, ∀ i < args.length, word (after mem stores) (4 * i : Nat) = clientBuf + BitVec.ofNat 32 (pos i)
  null : ∀ mem, word (after mem stores) (4 * args.length : Nat) = 0
  string : ∀ mem, ∀ i arg, args[i]? = some arg → HasString (after mem stores) (pos i) arg
  behind : ∀ i < args.length, 4 * args.length + 4 ≤ pos i
  inside : ∀ i arg, args[i]? = some arg → pos i + arg.length + 1 ≤ size args
  apart : ∀ i j arg, i < j → j < args.length → args[i]? = some arg → pos i + arg.length + 1 ≤ pos j

/-- What the call has to do with a buffer. -/
structure Serves (args : List (List (BitVec 8))) (clientBuf bufBytes : BitVec 32) (valid : Bool) : Prop where
  tooSmall : bufBytes.toInt < size args → doOsCallArgv (setCmdLine args) clientBuf bufBytes valid = some (-2, [])
  accepted : size args ≤ bufBytes.toInt → valid = true →
    ∃ stores pos, doOsCallArgv (setCmdLine args) clientBuf bufBytes valid = some (BitVec.ofNat 32 args.length, stores) ∧
      Placed clientBuf args stores pos

variable {args : List (List (BitVec 8))} {clientBuf : BitVec 32}

lemma setCmdLine_eq (args : List (List (BitVec 8))) : setCmdLine args = ⟨args, BitVec.ofNat 32 (size args)⟩ := by
  have general (cmdLine : CmdLine) : args.foldl (fun cmdLine arg =>
      (⟨cmdLine.arg ++ [arg], cmdLine.minBufBytes + BitVec.ofNat 32 (4 + arg.length + 1)⟩ : CmdLine)) cmdLine =
      ⟨cmdLine.arg ++ args, cmdLine.minBufBytes + BitVec.ofNat 32 (4 * args.length + stringBytes args)⟩ := by
    induction args generalizing cmdLine with
    | nil => simp [stringBytes]
    | cons arg args ih =>
      rw [List.foldl_cons, ih, List.append_assoc, List.singleton_append, BitVec.add_assoc, ← BitVec.ofNat_add]
      simp only [stringBytes, List.map_cons, List.sum_cons, List.length_cons, mk.injEq, true_and]
      congr 2
      omega
  have total : size args = 4 + (4 * args.length + stringBytes args) := by
    rw [size]
    omega
  rw [setCmdLine, general, List.nil_append, total, BitVec.ofNat_add 4]
  rfl

lemma positions_memcpy (pos : Nat) (bytes : List (BitVec 8)) :
    (memcpy pos bytes).map Prod.fst = (List.range' pos bytes.length).map Nat.cast := by
  induction bytes generalizing pos with
  | nil => rfl
  | cons byte bytes ih => simpa [memcpy, List.range'_succ] using ih (pos + 1)

lemma mem_memcpy {pos : Int} {bytes : List (BitVec 8)} {k : Nat} {byte : BitVec 8} (is : bytes[k]? = some byte) :
    (pos + k, byte) ∈ memcpy pos bytes := by
  induction bytes generalizing pos k with
  | nil => cases is
  | cons first bytes ih =>
    cases k with
    | zero => simp_all [memcpy]
    | succ k =>
      have later : (pos + 1 + k, byte) ∈ memcpy (pos + 1) bytes := ih (by simpa using is)
      rw [memcpy, show pos + (k + 1 : Nat) = pos + 1 + k by omega]
      exact List.mem_cons_of_mem _ later

lemma memcpy_append (pos : Int) (first rest : List (BitVec 8)) :
    memcpy pos (first ++ rest) = memcpy pos first ++ memcpy (pos + first.length) rest := by
  induction first generalizing pos with
  | nil => simp [memcpy]
  | cons byte first ih =>
    simp only [List.cons_append, memcpy, ih, List.length_cons]
    rw [show pos + 1 + (first.length : Int) = pos + (first.length + 1 : Nat) by omega]

/-- What is stored for the arguments, from the position of the first pointer and of the first string on. -/
def placed (clientBuf : BitVec 32) : (argvPos strPos : Nat) → List (List (BitVec 8)) → Stores
  | _, _, [] => []
  | argvPos, strPos, arg :: args =>
    write32le argvPos (clientBuf + BitVec.ofNat 32 strPos) ++ memcpy strPos (arg ++ [0]) ++
      placed clientBuf (argvPos + 4) (strPos + arg.length + 1) args

lemma toInt_small {n : Nat} (small : n < 2 ^ 31) : (BitVec.ofNat 32 n).toInt = n := by
  rw [BitVec.toInt_ofNat', Int.bmod_def]
  omega

/-- As long as no position leaves the range of an `int`, the loop stores the arguments one behind the other. -/
lemma foldl_putArg (clientBuf : BitVec 32) (argvPos strPos : Nat) (stores : Stores) (args : List (List (BitVec 8)))
    (pointers : argvPos + 4 * args.length < 2 ^ 31) (strings : strPos + stringBytes args < 2 ^ 31) :
    args.foldl (putArg clientBuf) ⟨BitVec.ofNat 32 argvPos, BitVec.ofNat 32 strPos, stores⟩ =
      ⟨BitVec.ofNat 32 (argvPos + 4 * args.length), BitVec.ofNat 32 (strPos + stringBytes args),
        stores ++ placed clientBuf argvPos strPos args⟩ := by
  induction args generalizing argvPos strPos stores with
  | nil => simp [stringBytes, placed]
  | cons arg args ih =>
    simp only [stringBytes, List.map_cons, List.sum_cons, List.length_cons] at pointers strings
    have put : putArg clientBuf ⟨BitVec.ofNat 32 argvPos, BitVec.ofNat 32 strPos, stores⟩ arg =
        ⟨BitVec.ofNat 32 (argvPos + 4), BitVec.ofNat 32 (strPos + arg.length + 1),
          stores ++ (write32le argvPos (clientBuf + BitVec.ofNat 32 strPos) ++ memcpy strPos (arg ++ [0]))⟩ := by
      have whole : arg.take ((BitVec.ofNat 32 arg.length).signExtend 64).toNat = arg := by
        refine List.take_of_length_le ?_
        rw [BitVec.signExtend_eq_setWidth_of_msb_false, BitVec.toNat_setWidth, BitVec.toNat_ofNat]
        · omega
        · rw [BitVec.msb_eq_decide, BitVec.toNat_ofNat, decide_eq_false_iff_not]
          omega
      have ends : strPos + arg.length < 2 ^ 31 := by omega
      have pointer : BitVec.ofNat 32 argvPos + 4 = BitVec.ofNat 32 (argvPos + 4) := (BitVec.ofNat_add argvPos 4).symm
      have terminated : BitVec.ofNat 32 (strPos + arg.length) + 1 = BitVec.ofNat 32 (strPos + arg.length + 1) :=
        (BitVec.ofNat_add (strPos + arg.length) 1).symm
      simp only [putArg, whole, ← BitVec.ofNat_add, toInt_small ends, toInt_small (show argvPos < 2 ^ 31 by omega),
        toInt_small (show strPos < 2 ^ 31 by omega), memcpy_append, List.append_assoc, Nat.cast_add, pointer,
        terminated]
    rw [List.foldl_cons, put, ih _ _ _ (by omega) (by rw [stringBytes]; omega)]
    simp only [stringBytes, List.map_cons, List.sum_cons, List.length_cons, placed, List.append_assoc, Layout.mk.injEq,
      and_true]
    constructor <;> congr 1 <;> omega

lemma stringBytes_cons (arg : List (BitVec 8)) (args : List (List (BitVec 8))) :
    stringBytes (arg :: args) = arg.length + 1 + stringBytes args := by
  rw [stringBytes, List.map_cons, List.sum_cons, stringBytes]

def pointers (clientBuf : BitVec 32) : (strPos : Nat) → List (List (BitVec 8)) → List (BitVec 8)
  | _, [] => []
  | strPos, arg :: args =>
    wordBytes (clientBuf + BitVec.ofNat 32 strPos) ++ pointers clientBuf (strPos + arg.length + 1) args

def strings (args : List (List (BitVec 8))) : List (BitVec 8) := args.flatMap (· ++ [0])

lemma length_pointers (strPos : Nat) (args : List (List (BitVec 8))) :
    (pointers clientBuf strPos args).length = 4 * args.length := by
  induction args generalizing strPos with
  | nil => rfl
  | cons arg args ih =>
    rw [pointers, List.length_append, ih, List.length_cons, Nat.mul_succ, Nat.add_comm]
    rfl

lemma length_strings (args : List (List (BitVec 8))) : (strings args).length = stringBytes args := by
  rw [strings, List.length_flatMap, stringBytes]
  simp

/-- The pointers take up one part of the buffer and the strings another. -/
lemma placed_perm (clientBuf : BitVec 32) (argvPos strPos : Nat) (args : List (List (BitVec 8))) :
    (placed clientBuf argvPos strPos args).Perm
      (memcpy argvPos (pointers clientBuf strPos args) ++ memcpy strPos (strings args)) := by
  induction args generalizing argvPos strPos with
  | nil => exact .refl _
  | cons arg args ih =>
    have first : memcpy argvPos (pointers clientBuf strPos (arg :: args)) =
        write32le argvPos (clientBuf + BitVec.ofNat 32 strPos) ++
          memcpy (argvPos + 4 : Nat) (pointers clientBuf (strPos + arg.length + 1) args) := by
      rw [pointers, memcpy_append]
      rfl
    have second : memcpy strPos (strings (arg :: args)) =
        memcpy strPos (arg ++ [0]) ++ memcpy (strPos + arg.length + 1 : Nat) (strings args) := by
      rw [strings, List.flatMap_cons, memcpy_append, List.length_append]
      rfl
    have later := (ih (argvPos + 4) (strPos + arg.length + 1)).append_left (memcpy strPos (arg ++ [0]))
    rw [placed, first, second, List.append_assoc, List.append_assoc]
    refine List.Perm.append_left _ (later.trans ?_)
    rw [← List.append_assoc, ← List.append_assoc]
    exact List.perm_append_comm.append_right _

lemma mem_placed (clientBuf : BitVec 32) (argvPos strPos : Nat) {i : Nat} {arg : List (BitVec 8)}
    (is : args[i]? = some arg) :
    write32le (argvPos + 4 * i : Nat) (clientBuf + BitVec.ofNat 32 (strPos + stringBytes (args.take i))) ⊆
        placed clientBuf argvPos strPos args ∧
      memcpy (strPos + stringBytes (args.take i) : Nat) (arg ++ [0]) ⊆ placed clientBuf argvPos strPos args := by
  induction args generalizing argvPos strPos i with
  | nil => cases is
  | cons first args ih =>
    cases i with
    | zero =>
      cases is
      constructor
      · exact fun _ mem => List.mem_append_left _ (List.mem_append_left _ mem)
      · exact fun _ mem => List.mem_append_left _ (List.mem_append_right _ mem)
    | succ i =>
      have later := ih (argvPos + 4) (strPos + first.length + 1) (i := i) is
      rw [show argvPos + 4 + 4 * i = argvPos + 4 * (i + 1) by omega, Nat.add_assoc strPos, Nat.add_assoc strPos,
        ← stringBytes_cons, ← List.take_succ_cons] at later
      constructor
      · exact fun _ mem => List.mem_append_right _ (later.1 mem)
      · exact fun _ mem => List.mem_append_right _ (later.2 mem)

lemma after_of_absent {stores : Stores} {pos : Int} (absent : pos ∉ stores.map Prod.fst) (mem : Int → BitVec 8) :
    after mem stores pos = mem pos := by
  induction stores generalizing mem with
  | nil => rfl
  | cons store stores ih =>
    rw [List.map_cons, List.mem_cons, not_or] at absent
    exact (ih absent.2 _).trans (Function.update_of_ne absent.1 ..)

lemma after_of_mem {stores : Stores} (once : (stores.map Prod.fst).Nodup) {pos : Int} {byte : BitVec 8}
    (stored : (pos, byte) ∈ stores) (mem : Int → BitVec 8) : after mem stores pos = byte := by
  induction stores generalizing mem with
  | nil => cases stored
  | cons store stores ih =>
    rw [List.map_cons, List.nodup_cons] at once
    rcases List.mem_cons.mp stored with rfl | later
    · exact (after_of_absent once.1 _).trans (Function.update_self ..)
    · exact ih once.2 later _

lemma word_after {stores : Stores} (once : (stores.map Prod.fst).Nodup) {pos : Int} {value : BitVec 32}
    (stored : write32le pos value ⊆ stores) (mem : Int → BitVec 8) : word (after mem stores) pos = value := by
  have byte (k : Nat) (b : BitVec 8) (is : (wordBytes value)[k]? = some b) : after mem stores (pos + k) = b :=
    after_of_mem once (stored (mem_memcpy is)) mem
  have first : after mem stores pos = value.extractLsb' 0 8 := by simpa using byte 0 _ rfl
  have second : after mem stores (pos + 1) = value.extractLsb' 8 8 := byte 1 _ rfl
  have third : after mem stores (pos + 2) = value.extractLsb' 16 8 := byte 2 _ rfl
  have fourth : after mem stores (pos + 3) = value.extractLsb' 24 8 := byte 3 _ rfl
  rw [word, first, second, third, fourth]
  refine BitVec.eq_of_getLsbD_eq fun i inside => ?_
  simp only [BitVec.getLsbD_append, BitVec.getLsbD_extractLsb']
  grind

def stringPos (args : List (List (BitVec 8))) (i : Nat) : Nat := 4 * args.length + 4 + stringBytes (args.take i)

def storesOf (clientBuf : BitVec 32) (args : List (List (BitVec 8))) : Stores :=
  placed clientBuf 0 (4 * args.length + 4) args ++ write32le (4 * args.length : Nat) 0

def layoutBytes (clientBuf : BitVec 32) (args : List (List (BitVec 8))) : List (BitVec 8) :=
  pointers clientBuf (4 * args.length + 4) args ++ wordBytes 0 ++ strings args

lemma storesOf_perm (clientBuf : BitVec 32) (args : List (List (BitVec 8))) :
    (storesOf clientBuf args).Perm (memcpy 0 (layoutBytes clientBuf args)) := by
  have placed := placed_perm clientBuf 0 (4 * args.length + 4) args
  rw [layoutBytes, memcpy_append, memcpy_append, List.length_append, length_pointers]
  refine (placed.append_right _).trans ?_
  rw [List.append_assoc, List.append_assoc, Int.zero_add, Int.zero_add]
  exact List.perm_append_comm.append_left _

lemma length_layoutBytes (clientBuf : BitVec 32) (args : List (List (BitVec 8))) :
    (layoutBytes clientBuf args).length = size args := by
  rw [layoutBytes, List.length_append, List.length_append, length_pointers, length_strings]
  rfl

lemma positions_storesOf (clientBuf : BitVec 32) (args : List (List (BitVec 8))) :
    ((storesOf clientBuf args).map Prod.fst).Perm ((List.range (size args)).map Nat.cast) := by
  have positions := positions_memcpy 0 (layoutBytes clientBuf args)
  rw [length_layoutBytes, ← List.range_eq_range'] at positions
  exact positions ▸ (storesOf_perm clientBuf args).map Prod.fst

lemma stringBytes_take {i : Nat} {arg : List (BitVec 8)} (is : args[i]? = some arg) :
    stringBytes (args.take (i + 1)) = stringBytes (args.take i) + arg.length + 1 := by
  rw [stringBytes, List.take_add_one, is, Option.toList_some, List.map_append, List.sum_append]
  rfl

lemma stringBytes_mono (args : List (List (BitVec 8))) {i j : Nat} (le : i ≤ j) :
    stringBytes (args.take i) ≤ stringBytes (args.take j) := by
  have split : args.take j = args.take i ++ (args.drop i).take (j - i) := by
    rw [← List.take_add, Nat.add_sub_cancel' le]
  rw [split, stringBytes, stringBytes, List.map_append, List.sum_append]
  omega

lemma storesOf_placed (clientBuf : BitVec 32) (args : List (List (BitVec 8))) :
    Placed clientBuf args (storesOf clientBuf args) (stringPos args) := by
  have positions := positions_storesOf clientBuf args
  have once : ((storesOf clientBuf args).map Prod.fst).Nodup :=
    positions.nodup_iff.mpr (List.nodup_range.map Nat.cast_injective)
  have next {i : Nat} {arg : List (BitVec 8)} (is : args[i]? = some arg) :
      stringPos args i + arg.length + 1 = stringPos args (i + 1) := by
    rw [stringPos, stringPos, stringBytes_take is]
    omega
  refine ⟨positions, fun mem i inside => ?_, fun mem => ?_, fun mem i arg is k byte isByte => ?_, fun i _ => ?_,
    fun i arg is => ?_, fun i j arg before _ is => ?_⟩
  · have stored := (mem_placed clientBuf 0 (4 * args.length + 4) (List.getElem?_eq_getElem inside)).1
    rw [Nat.zero_add] at stored
    exact word_after once (fun _ here => List.mem_append_left _ (stored here)) mem
  · exact word_after once (fun _ here => List.mem_append_right _ here) mem
  · have stored := (mem_placed clientBuf 0 (4 * args.length + 4) is).2
    exact after_of_mem once (List.mem_append_left _ (stored (mem_memcpy isByte))) mem
  · exact Nat.le_add_right ..
  · rw [next is, stringPos, size]
    have whole := stringBytes_mono args (Nat.le_max_left (i + 1) args.length)
    rw [List.take_of_length_le (Nat.le_max_right (i + 1) args.length)] at whole
    omega
  · rw [next is, stringPos, stringPos]
    have := stringBytes_mono args (show i + 1 ≤ j from before)
    omega

lemma littleEndian_wordBytes (clientBuf : BitVec 32) (n : Nat) :
    littleEndian 4 (clientBuf.toNat + n) = wordBytes (clientBuf + BitVec.ofNat 32 n) := by
  have byte (k : Nat) (within : k < 4) : BitVec.ofNat 8 ((clientBuf.toNat + n) / 2 ^ (8 * k)) =
      (clientBuf + BitVec.ofNat 32 n).extractLsb' (8 * k) 8 := by
    refine BitVec.eq_of_toNat_eq ?_
    rw [BitVec.toNat_ofNat, BitVec.extractLsb'_toNat, BitVec.toNat_add, BitVec.toNat_ofNat, Nat.shiftRight_eq_div_pow]
    interval_cases k <;> omega
  simp only [littleEndian, wordBytes, List.range_succ, List.range_zero, List.nil_append, List.cons_append,
    List.map_cons, List.map_nil, List.cons.injEq, and_true]
  exact ⟨byte 0 (by decide), byte 1 (by decide), byte 2 (by decide), byte 3 (by decide)⟩

/-- The bytes that the system call of a core puts into its RAM are those that are stored here. -/
lemma argvBytes_eq (clientBuf : BitVec 32) (args : List (List (BitVec 8))) :
    argvBytes clientBuf.toNat args = layoutBytes clientBuf args := by
  have table (strPos : Nat) : ((List.range args.length).map fun i => strPos + stringBytes (args.take i)).flatMap
      (fun position => littleEndian 4 (clientBuf.toNat + position)) = pointers clientBuf strPos args := by
    induction args generalizing strPos with
    | nil => rfl
    | cons arg args ih =>
      rw [pointers, ← ih, List.length_cons, List.range_succ_eq_map, List.map_cons, List.flatMap_cons, List.map_map,
        littleEndian_wordBytes]
      refine congrArg₂ _ rfl (congrArg (List.flatMap _) (List.map_congr_left fun i _ => ?_))
      rw [Function.comp_apply, List.take_succ_cons, stringBytes_cons]
      omega
  have null : littleEndian 4 0 = wordBytes 0 := by decide
  rw [argvBytes, layoutBytes, ← table, null]
  rfl

/-- A size in the range of an `int` is the one that the buffer is compared with. -/
lemma doOsCallArgv_small (small : size args < 2 ^ 31) (clientBuf bufBytes : BitVec 32) (valid : Bool) :
    doOsCallArgv (setCmdLine args) clientBuf bufBytes valid =
      if bufBytes.toInt < size args then some (-2, [])
      else if !valid then some (-1, [])
      else some (BitVec.ofNat 32 args.length, storesOf clientBuf args) := by
  have total : size args = 4 * args.length + 4 + stringBytes args := rfl
  have start : 4 * BitVec.ofNat 32 args.length + 4 = BitVec.ofNat 32 (4 * args.length + 4) := by
    rw [BitVec.ofNat_add, BitVec.ofNat_mul]
    rfl
  have looped := foldl_putArg clientBuf 0 (4 * args.length + 4) [] args (by omega) (by omega)
  rw [← start, Nat.zero_add, List.nil_append] at looped
  rw [setCmdLine_eq, doOsCallArgv]
  dsimp only
  rw [toInt_small small, toInt_small (show args.length < 2 ^ 31 by omega), Int.toNat_natCast, List.take_length,
    show (0 : BitVec 32) = BitVec.ofNat 32 0 from rfl, looped]
  dsimp only
  rw [← total, if_pos rfl, toInt_small (show 4 * args.length < 2 ^ 31 by omega)]
  rfl

/-- A buffer that passes the test of its size is either invalid or written to. -/
lemma rejected_of_unchanged {cmdLine : CmdLine} {clientBuf bufBytes : BitVec 32} {valid : Bool}
    (unchanged : doOsCallArgv cmdLine clientBuf bufBytes valid = some (-2, [])) :
    bufBytes.toInt < cmdLine.minBufBytes.toInt := by
  by_contra large
  rw [doOsCallArgv, if_neg large] at unchanged
  cases valid with
  | false =>
    rw [Bool.not_false, if_pos rfl] at unchanged
    cases unchanged
  | true =>
    rw [Bool.not_true, if_neg Bool.false_ne_true] at unchanged
    dsimp only at unchanged
    split at unchanged
    · have none := congrArg Prod.snd (Option.some.inj unchanged)
      simp [write32le, wordBytes, memcpy] at none
    · cases unchanged

lemma toInt_le (n : Nat) : (BitVec.ofNat 32 n).toInt ≤ n := by
  rw [BitVec.toInt_ofNat', Int.bmod_def]
  omega

/-- The call serves the guest exactly if the size of the arguments is in the range of an `int`, or the size that is
left of it happens to be larger than the buffer. -/
theorem argv_served_iff (args : List (List (BitVec 8))) (clientBuf bufBytes : BitVec 32) (valid : Bool) :
    Serves args clientBuf bufBytes valid ↔
      size args < 2 ^ 31 ∨ bufBytes.toInt < (BitVec.ofNat 32 (size args)).toInt := by
  constructor
  · intro serves
    by_contra neither
    obtain ⟨large, passes⟩ := not_or.mp neither
    have bound : bufBytes.toInt < 2 ^ 31 := BitVec.toInt_lt
    have rejected := rejected_of_unchanged (serves.tooSmall (by omega))
    rw [setCmdLine_eq] at rejected
    exact passes rejected
  · rintro (small | rejected)
    · constructor
      · intro tooSmall
        rw [doOsCallArgv_small small, if_pos tooSmall]
      · intro large isValid
        refine ⟨storesOf clientBuf args, stringPos args, ?_, storesOf_placed clientBuf args⟩
        rw [doOsCallArgv_small small, if_neg (by omega), isValid]
        rfl
    · have least := toInt_le (size args)
      refine ⟨fun _ => ?_, fun large _ => by omega⟩
      rw [setCmdLine_eq, doOsCallArgv, if_pos rejected]

lemma not_rejected {arg : List (BitVec 8)} (length : arg.length = 2 ^ 31 - 9) (clientBuf : BitVec 32) :
    size [arg] = 2 ^ 31 ∧ doOsCallArgv (setCmdLine [arg]) clientBuf 0 true ≠ some (-2, []) := by
  have total : size [arg] = 2 ^ 31 := by simp [size, stringBytes, length]
  refine ⟨total, fun unchanged => ?_⟩
  have rejected := rejected_of_unchanged unchanged
  rw [setCmdLine_eq, total] at rejected
  dsimp only at rejected
  exact absurd rejected (by decide)

/-- An argument of two gigabytes makes the size negative, so that it is not too large for an empty buffer. -/
theorem argv_size_negative : size [List.replicate (2 ^ 31 - 9) 65] = 2 ^ 31 ∧
    doOsCallArgv (setCmdLine [List.replicate (2 ^ 31 - 9) 65]) 0x10000 0 true ≠ some (-2, []) :=
  not_rejected List.length_replicate 0x10000

end CmdLine

end Axe
