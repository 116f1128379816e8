import Mathlib.Data.BitVec

/-! An XE file: a magic number and a version, then sectors, each behind a header with its length. The reader goes from
header to header by absolute positions. -/

namespace Axe

structure XESector where
  offset : Nat
  type : BitVec 16
  length : BitVec 64
  /-- The node, the core and the address that `ELF`, `CALL` and `GOTO` sectors begin with. -/
  location : Option (BitVec 16 × BitVec 16 × BitVec 64)
  deriving DecidableEq

namespace XE

def readU16 : List (BitVec 8) → Option (BitVec 16)
  | a :: b :: _ => some (b ++ a)
  | _ => none

/-- The low word is put together as an `int`, so that its sign goes into the high one. -/
def readU64 : List (BitVec 8) → Option (BitVec 64)
  | a :: b :: c :: d :: e :: f :: g :: h :: _ =>
    some ((d ++ c ++ b ++ a : BitVec 32).signExtend 64 ||| (h ++ g ++ f ++ e : BitVec 32).setWidth 64 <<< 32)
  | _ => none

def hasLocation (type : BitVec 16) : Bool := type == 2 || type == 5 || type == 6

def lastSector : BitVec 16 := 0x5555

def readLocation (rest : List (BitVec 8)) : Option (BitVec 16 × BitVec 16 × BitVec 64) := do
  return (← readU16 rest, ← readU16 (rest.drop 2), ← readU64 (rest.drop 4))

/-- The sector and the position of the next header, no sector at the last header, and nothing if the stream fails. -/
def readHeader (file : List (BitVec 8)) (pos : Nat) : Option (Option (XESector × Nat)) := do
  let rest := file.drop pos
  let type ← readU16 rest
  let length ← readU64 (rest.drop 4)
  let padding ← (if 0 < length then (rest.drop 12).head? else some 0)
  let size := if 0 < length then 16 else 12
  if type = lastSector then return none
  let location ← (if hasLocation type then (readLocation (rest.drop size)).map some else some none)
  -- The stream cannot be set to a negative position.
  let next := BitVec.ofNat 64 (pos + size) + length - 4
  if next.msb then none
  return some (⟨pos + size, type, length - padding.setWidth 64, location⟩, next.toNat)

/-- The sectors from a header on, nothing if there is an error, for as many headers as there is fuel. -/
def readHeaders (file : List (BitVec 8)) : Nat → Nat → Option (Option (List XESector))
  | 0, _ => none
  | fuel + 1, pos =>
    match readHeader file pos with
    | none => some none
    | some none => some (some [])
    | some (some (sector, next)) => (readHeaders file fuel next).map (·.map (sector :: ·))

def magic : List (BitVec 8) := [0x58, 0x4d, 0x4f, 0x53]

def load (file : List (BitVec 8)) (fuel : Nat) : Option (Option (BitVec 16 × List XESector)) :=
  if file.take 4 = magic then
    match readU16 (file.drop 4) with
    | none => some none
    | some version => (readHeaders file fuel 8).map (·.map (version, ·))
  else some none

/-! ### Writing -/

def bytes16 (x : BitVec 16) : List (BitVec 8) := [x.extractLsb' 0 8, x.extractLsb' 8 8]

def bytes64 (x : BitVec 64) : List (BitVec 8) :=
  [x.extractLsb' 0 8, x.extractLsb' 8 8, x.extractLsb' 16 8, x.extractLsb' 24 8,
    x.extractLsb' 32 8, x.extractLsb' 40 8, x.extractLsb' 48 8, x.extractLsb' 56 8]

/-- What stands behind a header. -/
def body (location : Option (BitVec 16 × BitVec 16 × BitVec 64)) (contents : List (BitVec 8)) : List (BitVec 8) :=
  match location with
  | none => contents
  | some (node, core, address) => bytes16 node ++ bytes16 core ++ bytes64 address ++ contents

/-- A sector that can be written: bit 31 of the length and of the address is clear. -/
structure Source where
  type : BitVec 16
  padding : BitVec 8
  location : Option (BitVec 16 × BitVec 16 × BitVec 64)
  contents : List (BitVec 8)
  notLast : type ≠ lastSector
  located : location.isSome = hasLocation type
  address : ∀ node core a, location = some (node, core, a) → a.getLsbD 31 = false
  size : (BitVec.ofNat 64 ((body location contents).length + 4)).getLsbD 31 = false

namespace Source

variable (src : Source)

def length : BitVec 64 := BitVec.ofNat 64 ((body src.location src.contents).length + 4)

def bytes : List (BitVec 8) :=
  bytes16 src.type ++ [0, 0] ++ bytes64 src.length ++ [src.padding, 0, 0, 0] ++ body src.location src.contents

def sectorAt (pos : Nat) : XESector := ⟨pos + 16, src.type, src.length - src.padding.setWidth 64, src.location⟩

end Source

def sectorsAt : Nat → List Source → List XESector
  | _, [] => []
  | pos, src :: srcs => src.sectorAt pos :: sectorsAt (pos + src.bytes.length) srcs

def lastHeader : List (BitVec 8) := bytes16 lastSector ++ [0, 0] ++ bytes64 0

def write (version : BitVec 16) (srcs : List Source) (tail : List (BitVec 8)) : List (BitVec 8) :=
  magic ++ bytes16 version ++ [0, 0] ++ (srcs.flatMap Source.bytes ++ (lastHeader ++ tail))

lemma readU16_bytes16 (x : BitVec 16) (rest : List (BitVec 8)) : readU16 (bytes16 x ++ rest) = some x := by
  refine congrArg some (BitVec.eq_of_getLsbD_eq fun i bound => ?_)
  simp only [BitVec.getLsbD_append, BitVec.getLsbD_extractLsb']
  grind

/-- What is read of a number that has been written. -/
def readBack (x : BitVec 64) : BitVec 64 := if x.getLsbD 31 then x ||| BitVec.allOnes 64 <<< 32 else x

lemma readU64_bytes (x : BitVec 64) (rest : List (BitVec 8)) : readU64 (bytes64 x ++ rest) = some (readBack x) := by
  refine congrArg some (BitVec.eq_of_getLsbD_eq fun i bound => ?_)
  rw [readBack]
  simp only [apply_ite (BitVec.getLsbD · i), BitVec.getLsbD_or, BitVec.getLsbD_signExtend, BitVec.getLsbD_shiftLeft,
    BitVec.getLsbD_setWidth, BitVec.msb_eq_getLsbD_last, BitVec.getLsbD_append, BitVec.getLsbD_extractLsb',
    BitVec.getLsbD_allOnes]
  grind

lemma readBack_of_clear {x : BitVec 64} (clear : x.getLsbD 31 = false) : readBack x = x :=
  if_neg (Bool.eq_false_iff.mp clear)

lemma readU64_bytes64 {x : BitVec 64} (clear : x.getLsbD 31 = false) (rest : List (BitVec 8)) :
    readU64 (bytes64 x ++ rest) = some x := by
  rw [readU64_bytes, readBack_of_clear clear]

lemma readLocation_body {location : Option (BitVec 16 × BitVec 16 × BitVec 64)} {node core : BitVec 16} {a : BitVec 64}
    (isSome : location = some (node, core, a)) (clear : a.getLsbD 31 = false) (contents rest : List (BitVec 8)) :
    readLocation (body location contents ++ rest) = location := by
  subst isSome
  have first : readU16 (body (some (node, core, a)) contents ++ rest) = some node := readU16_bytes16 node _
  have second : readU16 ((body (some (node, core, a)) contents ++ rest).drop 2) = some core := readU16_bytes16 core _
  have third : readU64 ((body (some (node, core, a)) contents ++ rest).drop 4) = some a := readU64_bytes64 clear _
  rw [readLocation, first, second, third]
  rfl

/-- The position of the header behind a sector with data at `off`. -/
def nextHeader (off : Nat) (length : BitVec 64) : BitVec 64 := BitVec.ofNat 64 off + length - 4

/-- A header with a length, behind which there is a padding count. -/
lemma readHeader_eq {file rest : List (BitVec 8)} {pos : Nat} {type : BitVec 16} {length : BitVec 64}
    {r₀ r₁ r₂ r₃ r₄ padding : BitVec 8} {location : Option (BitVec 16 × BitVec 16 × BitVec 64)}
    (here : file.drop pos = bytes16 type ++ [r₀, r₁] ++ bytes64 length ++ [padding, r₂, r₃, r₄] ++ rest)
    (notLast : type ≠ lastSector) (positive : 0 < readBack length)
    (located : (if hasLocation type then (readLocation rest).map some else some none) = some location) :
    readHeader file pos = if (nextHeader (pos + 16) (readBack length)).msb then none
      else some (some (⟨pos + 16, type, readBack length - padding.setWidth 64, location⟩,
        (nextHeader (pos + 16) (readBack length)).toNat)) := by
  have isType : readU16 (file.drop pos) = some type := here ▸ readU16_bytes16 _ _
  have isLength : readU64 ((file.drop pos).drop 4) = some (readBack length) := here ▸ readU64_bytes _ _
  have isPadding : ((file.drop pos).drop 12).head? = some padding := here ▸ rfl
  have behind : (file.drop pos).drop 16 = rest := here ▸ rfl
  simp only [readHeader, isType, isLength, isPadding, positive, behind, if_true, Option.bind_eq_bind,
    Option.bind_some, notLast, if_false, located]
  rw [← nextHeader]
  split <;> rfl

/-- Where the length is that of what stands behind the header, the next header follows. -/
lemma nextHeader_eq {pos size : Nat} {length : BitVec 64} (toNat : length.toNat = size + 4)
    (small : pos + (16 + size) < 2 ^ 63) : (nextHeader (pos + 16) length).msb = false ∧
      (nextHeader (pos + 16) length).toNat = pos + (16 + size) := by
  have next : (nextHeader (pos + 16) length).toNat = pos + (16 + size) := by
    have four : (4 : BitVec 64).toNat = 4 := rfl
    simp only [nextHeader, BitVec.toNat_sub, BitVec.toNat_add, BitVec.toNat_ofNat, toNat, four]
    omega
  refine ⟨?_, next⟩
  rw [BitVec.msb_eq_decide, next]
  exact decide_eq_false (by omega)

namespace Source

variable (src : Source) {file rest : List (BitVec 8)} {pos : Nat}

lemma location_read (rest : List (BitVec 8)) :
    (if hasLocation src.type then (readLocation (body src.location src.contents ++ rest)).map some else some none) =
      some src.location := by
  have located := src.located
  cases isSome : src.location with
  | none =>
    rw [isSome] at located
    rw [← located]
    rfl
  | some at' =>
    rw [isSome] at located
    rw [← located, ← isSome, readLocation_body isSome (src.address _ _ _ isSome), isSome]
    rfl

lemma length_bytes : src.bytes.length = 16 + (body src.location src.contents).length := by
  simp [bytes, bytes16, bytes64]
  omega

lemma readHeader_bytes (here : file.drop pos = src.bytes ++ rest) (small : pos + src.bytes.length < 2 ^ 63) :
    readHeader file pos = some (some (src.sectorAt pos, pos + src.bytes.length)) := by
  rw [length_bytes] at small ⊢
  have unchanged : readBack src.length = src.length := readBack_of_clear src.size
  have toNat : src.length.toNat = (body src.location src.contents).length + 4 := by
    rw [Source.length, BitVec.toNat_ofNat]
    omega
  have positive : 0 < readBack src.length := by
    rw [unchanged, BitVec.lt_def, toNat]
    exact Nat.succ_pos _
  obtain ⟨forward, next⟩ := nextHeader_eq toNat small
  rw [bytes, List.append_assoc] at here
  rw [readHeader_eq here src.notLast positive (src.location_read rest), unchanged, forward, next]
  rfl

end Source

lemma readHeaders_bytes {file tail : List (BitVec 8)} (srcs : List Source) {pos : Nat}
    (here : file.drop pos = srcs.flatMap Source.bytes ++ (lastHeader ++ tail)) (small : file.length < 2 ^ 63) :
    readHeaders file (srcs.length + 1) pos = some (some (sectorsAt pos srcs)) := by
  induction srcs generalizing pos with
  | nil =>
    have last : readHeader file pos = some none := by
      rw [readHeader, here]
      rfl
    rw [List.length_nil, readHeaders, last]
    rfl
  | cons src srcs ih =>
    rw [List.flatMap_cons, List.append_assoc] at here
    have length := congrArg List.length here
    have next : file.drop (pos + src.bytes.length) = srcs.flatMap Source.bytes ++ (lastHeader ++ tail) := by
      rw [← List.drop_drop, here, List.drop_left]
    simp only [List.length_drop, List.length_append] at length
    have positive := src.length_bytes
    rw [List.length_cons, readHeaders, src.readHeader_bytes here (by omega)]
    simp only [ih next, Option.map_some, sectorsAt]

/-- A file that is written sector by sector is read back, whatever stands behind the last header. -/
theorem load_write (version : BitVec 16) (srcs : List Source) (tail : List (BitVec 8))
    (small : (write version srcs tail).length < 2 ^ 63) :
    load (write version srcs tail) (srcs.length + 1) = some (some (version, sectorsAt 8 srcs)) := by
  have start : (write version srcs tail).take 4 = magic := rfl
  have isVersion : readU16 ((write version srcs tail).drop 4) = some version := readU16_bytes16 version _
  have here : (write version srcs tail).drop 8 = srcs.flatMap Source.bytes ++ (lastHeader ++ tail) := rfl
  rw [load, if_pos start, isVersion]
  simp only [readHeaders_bytes srcs here small, Option.map_some]

/-- A call at address 0x10000, with three bytes behind it. -/
def callSource : Source :=
  ⟨6, 3, some (0, 1, 0x10000), [7, 7, 7], by decide, rfl, fun _ _ _ is => by cases is; rfl, by decide⟩

theorem load_write_call : load (write 2 [callSource] [9]) 2 =
    some (some (2, [⟨24, 6, 16, some (0, 1, 0x10000)⟩])) :=
  load_write 2 [callSource] [9] (by decide)

end XE

end Axe
