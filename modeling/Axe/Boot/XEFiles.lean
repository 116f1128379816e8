import Axe.Boot.XE

/-! Which XE files are read back: any sectors, each directly behind the one before, as the reader assumes. -/

namespace Axe

namespace XE

/-- What stands behind a length that is not zero. -/
structure Contents where
  padding : BitVec 8
  reserved : BitVec 8 × BitVec 8 × BitVec 8
  data : List (BitVec 8)

/-- A sector as it stands in a file; without contents its length is zero. -/
structure Stored where
  type : BitVec 16
  reserved : BitVec 8 × BitVec 8
  contents : Option Contents
  notLast : type ≠ lastSector

namespace Contents

def length (contents : Contents) : BitVec 64 := BitVec.ofNat 64 (contents.data.length + 4)

def bytes (contents : Contents) : List (BitVec 8) :=
  [contents.padding, contents.reserved.1, contents.reserved.2.1, contents.reserved.2.2] ++ contents.data

end Contents

namespace Stored

variable (src : Stored)

def length : BitVec 64 := src.contents.elim 0 Contents.length

def padding : BitVec 8 := src.contents.elim 0 Contents.padding

def bytes : List (BitVec 8) :=
  bytes16 src.type ++ [src.reserved.1, src.reserved.2] ++ bytes64 src.length ++ src.contents.elim [] Contents.bytes

/-- The data begins with a node, a core and an address. -/
def Located (node core : BitVec 16) (address : BitVec 64) : Prop :=
  hasLocation src.type = true ∧
    ∃ contents ∈ src.contents, ∃ rest, contents.data = body (some (node, core, address)) rest

/-- What the reader has to find of a sector whose header is at `pos`. -/
structure ReadAs (pos : Nat) (sector : XESector) : Prop where
  type : sector.type = src.type
  offset : sector.offset = pos + if src.contents.isSome then 16 else 12
  length : sector.length = src.length - src.padding.setWidth 64
  location : ∀ node core address, src.Located node core address → sector.location = some (node, core, address)

/-- The length is not zero, and no sign gets into the high word of a number. -/
structure Readable : Prop where
  nonempty : src.contents.isSome = true
  length : src.length.getLsbD 31 = false
  address : ∀ node core address, src.Located node core address → address.getLsbD 31 = true →
    address.extractLsb' 32 32 = BitVec.allOnes 32

end Stored

def file (version : BitVec 16) (srcs : List Stored) (tail : List (BitVec 8)) : List (BitVec 8) :=
  magic ++ bytes16 version ++ [0, 0] ++ (srcs.flatMap Stored.bytes ++ (lastHeader ++ tail))

/-- Sector by sector, from the position of the first header on. -/
def ReadBack : Nat → List Stored → List XESector → Prop
  | _, [], [] => True
  | pos, src :: srcs, sector :: sectors => src.ReadAs pos sector ∧ ReadBack (pos + src.bytes.length) srcs sectors
  | _, _, _ => False

lemma readBack_eq_iff {x : BitVec 64} :
    readBack x = x ↔ (x.getLsbD 31 = true → x.extractLsb' 32 32 = BitVec.allOnes 32) := by
  rw [readBack]
  cases sign : x.getLsbD 31 with
  | false => simp
  | true =>
    simp only [if_true, true_implies]
    constructor
    · intro same
      refine BitVec.eq_of_getLsbD_eq fun i inside => ?_
      have bit := congrArg (BitVec.getLsbD · (32 + i)) same
      simp only [BitVec.getLsbD_or, BitVec.getLsbD_shiftLeft, BitVec.getLsbD_allOnes] at bit
      simp only [BitVec.getLsbD_extractLsb', BitVec.getLsbD_allOnes]
      grind
    · intro ones
      refine BitVec.eq_of_getLsbD_eq fun i inside => ?_
      have bit := congrArg (BitVec.getLsbD · (i - 32)) ones
      simp only [BitVec.getLsbD_extractLsb', BitVec.getLsbD_allOnes] at bit
      simp only [BitVec.getLsbD_or, BitVec.getLsbD_shiftLeft, BitVec.getLsbD_allOnes]
      grind

/-- A number below 2 ^ 63 is read back only without the sign of an `int`. -/
lemma clear_of_readBack {x : BitVec 64} (small : x.toNat < 2 ^ 63) (same : readBack x = x) : x.getLsbD 31 = false := by
  by_contra set
  have ones := readBack_eq_iff.mp same (Bool.eq_true_of_not_eq_false set)
  have top : x.msb = true := by
    have bit := congrArg (BitVec.getLsbD · 31) ones
    simpa [BitVec.getLsbD_extractLsb', BitVec.msb_eq_getLsbD_last] using bit
  rw [BitVec.msb_eq_decide, decide_eq_true_iff] at top
  omega

lemma readBack_pos {x : BitVec 64} (nonzero : x ≠ 0) : 0 < readBack x := by
  have different : readBack x ≠ 0 := by
    intro zero
    rw [readBack] at zero
    split at zero
    · exact nonzero (BitVec.or_eq_zero_iff.mp zero).1
    · exact nonzero zero
  exact Nat.pos_of_ne_zero fun zero => different (BitVec.eq_of_toNat_eq zero)

lemma readU16_isSome {rest : List (BitVec 8)} (long : 2 ≤ rest.length) : ∃ x, readU16 rest = some x := by
  rcases rest with _ | ⟨a, _ | ⟨b, rest⟩⟩
  all_goals first | exact ⟨_, rfl⟩ | simp at long

lemma readU64_isSome {rest : List (BitVec 8)} (long : 8 ≤ rest.length) : ∃ x, readU64 rest = some x := by
  rcases rest with _ | ⟨a, _ | ⟨b, _ | ⟨c, _ | ⟨d, _ | ⟨e, _ | ⟨f, _ | ⟨g, _ | ⟨h, rest⟩⟩⟩⟩⟩⟩⟩⟩
  all_goals first | exact ⟨_, rfl⟩ | simp at long

lemma readLocation_isSome {rest : List (BitVec 8)} (long : 12 ≤ rest.length) :
    ∃ location, readLocation rest = some location := by
  obtain ⟨node, isNode⟩ := readU16_isSome (show 2 ≤ rest.length by omega)
  obtain ⟨core, isCore⟩ := readU16_isSome (show 2 ≤ (rest.drop 2).length by simp; omega)
  obtain ⟨address, isAddress⟩ := readU64_isSome (show 8 ≤ (rest.drop 4).length by simp; omega)
  exact ⟨(node, core, address), by simp [readLocation, isNode, isCore, isAddress]⟩

lemma readLocation_bytes (node core : BitVec 16) (address : BitVec 64) (data rest : List (BitVec 8)) :
    readLocation (body (some (node, core, address)) data ++ rest) = some (node, core, readBack address) := by
  have first : readU16 (body (some (node, core, address)) data ++ rest) = some node := readU16_bytes16 node _
  have second : readU16 ((body (some (node, core, address)) data ++ rest).drop 2) = some core :=
    readU16_bytes16 core _
  have third : readU64 ((body (some (node, core, address)) data ++ rest).drop 4) = some (readBack address) :=
    readU64_bytes address _
  rw [readLocation, first, second, third]
  rfl

namespace Stored

variable {src : Stored} {contents : Contents} {file rest : List (BitVec 8)} {pos : Nat}

lemma bytes_length (full : src.contents = some contents) : src.bytes.length = 16 + contents.data.length := by
  simp [bytes, full, Contents.bytes, bytes16, bytes64]
  omega

lemma length_toNat (full : src.contents = some contents) (small : pos + src.bytes.length < 2 ^ 63) :
    src.length.toNat = contents.data.length + 4 := by
  rw [bytes_length full] at small
  rw [length, full, Option.elim_some, Contents.length, BitVec.toNat_ofNat]
  omega

/-- What is read at a sector with contents, whatever its numbers are. -/
lemma readHeader_full (full : src.contents = some contents) (here : file.drop pos = src.bytes ++ rest)
    (long : 12 ≤ rest.length) (small : pos + src.bytes.length < 2 ^ 63) : ∃ location,
      readHeader file pos = (if (nextHeader (pos + 16) (readBack src.length)).msb then none
        else some (some (⟨pos + 16, src.type, readBack src.length - src.padding.setWidth 64, location⟩,
          (nextHeader (pos + 16) (readBack src.length)).toNat))) ∧
      ∀ node core address, src.Located node core address → location = some (node, core, readBack address) := by
  have nonzero : src.length ≠ 0 := by
    intro zero
    have toNat := length_toNat full small
    rw [zero] at toNat
    cases toNat
  obtain ⟨place, read⟩ := readLocation_isSome (show 12 ≤ (contents.data ++ rest).length by simp; omega)
  have split : src.bytes ++ rest = bytes16 src.type ++ [src.reserved.1, src.reserved.2] ++ bytes64 src.length ++
      [src.padding, contents.reserved.1, contents.reserved.2.1, contents.reserved.2.2] ++ (contents.data ++ rest) := by
    simp [bytes, padding, full, Contents.bytes]
  refine ⟨if hasLocation src.type then some place else none,
    readHeader_eq (here.trans split) src.notLast (readBack_pos nonzero) ?_, ?_⟩
  · rw [read]
    split <;> rfl
  · rintro node core address ⟨isLocated, found, isFound, data, is⟩
    obtain rfl : contents = found := Option.some.inj (full.symm.trans isFound)
    rw [is, readLocation_bytes] at read
    rw [if_pos isLocated, Option.some.inj read]

end Stored

/-- The reader goes on from the middle of the header of a sector without contents. -/
lemma readHeader_empty {src : Stored} {file rest : List (BitVec 8)} {pos : Nat} (empty : src.contents = none)
    (here : file.drop pos = src.bytes ++ rest) (long : 12 ≤ rest.length) (small : pos + 12 < 2 ^ 63) :
    ∃ sector, readHeader file pos = some (some (sector, pos + 8)) := by
  have split : src.bytes ++ rest = bytes16 src.type ++ ([src.reserved.1, src.reserved.2] ++ (bytes64 0 ++ rest)) := by
    simp [Stored.bytes, Stored.length, empty]
  have isType : readU16 (file.drop pos) = some src.type := here.trans split ▸ readU16_bytes16 _ _
  have isLength : readU64 ((file.drop pos).drop 4) = some 0 := here.trans split ▸ readU64_bytes64 (by decide) _
  have behind : (file.drop pos).drop 12 = rest := here.trans split ▸ rfl
  obtain ⟨place, read⟩ := readLocation_isSome long
  have next : (nextHeader (pos + 12) 0).toNat = pos + 8 := by
    have four : (4 : BitVec 64).toNat = 4 := rfl
    have zero : (0 : BitVec 64).toNat = 0 := rfl
    simp only [nextHeader, BitVec.toNat_sub, BitVec.toNat_add, BitVec.toNat_ofNat, four, zero]
    omega
  have forward : (nextHeader (pos + 12) 0).msb = false := by
    rw [BitVec.msb_eq_decide, next]
    exact decide_eq_false (by omega)
  have located : (if hasLocation src.type then (readLocation rest).map some else some none) =
      some (if hasLocation src.type then some place else none) := by
    rw [read]
    split <;> rfl
  refine ⟨⟨pos + 12, src.type, 0 - (0 : BitVec 8).setWidth 64, if hasLocation src.type then some place else none⟩, ?_⟩
  simp only [readHeader, isType, isLength, behind, Option.bind_eq_bind, Option.bind_some, src.notLast, if_false,
    located, BitVec.lt_irrefl]
  rw [← nextHeader, forward, next]
  rfl

/-- At the second half of a length of zero a sector of type 0 is read, whatever follows. -/
lemma readHeader_inside {file rest : List (BitVec 8)} {pos : Nat} (here : file.drop pos = [0, 0, 0, 0] ++ rest)
    {out : Option (XESector × Nat)} (read : readHeader file pos = some out) :
    ∃ sector next length, out = some (sector, next) ∧ readU64 rest = some length ∧ sector.type = 0 ∧
      sector.offset = pos + (if 0 < length then 16 else 12) ∧
      (0 < length → ∀ padding, (rest.drop 8).head? = some padding →
        sector.length = length - padding.setWidth 64) := by
  have isType : readU16 (file.drop pos) = some 0 := here ▸ rfl
  have behind : (file.drop pos).drop 4 = rest := here ▸ rfl
  have further : (file.drop pos).drop 12 = rest.drop 8 := here ▸ rfl
  have notLast : ¬(0 : BitVec 16) = lastSector := by decide
  have unlocated : hasLocation 0 = false := by decide
  simp only [readHeader, isType, behind, further, Option.bind_eq_bind, Option.bind_some, notLast, if_false,
    unlocated, Bool.false_eq_true] at read
  obtain ⟨length, isLength, read⟩ := Option.bind_eq_some_iff.mp read
  obtain ⟨padding, isPadding, read⟩ := Option.bind_eq_some_iff.mp read
  by_cases back : (nextHeader (pos + if 0 < length then 16 else 12) length).msb = true
  · rw [← nextHeader, if_pos back] at read
    cases read
  · rw [← nextHeader, if_neg back] at read
    cases read
    refine ⟨_, _, length, rfl, isLength, rfl, rfl, fun positive found isFound => ?_⟩
    rw [if_pos positive, isFound] at isPadding
    cases isPadding
    rfl

section

variable {file tail : List (BitVec 8)} {src : Stored} {srcs : List Stored} {pos : Nat} {sectors : List XESector}

/-- What stands behind a sector, up to the end of the file. -/
def behind (srcs : List Stored) (tail : List (BitVec 8)) : List (BitVec 8) :=
  srcs.flatMap Stored.bytes ++ (lastHeader ++ tail)

lemma behind_cons (src : Stored) (srcs : List Stored) (tail : List (BitVec 8)) :
    behind (src :: srcs) tail = src.bytes ++ behind srcs tail := by
  rw [behind, behind, List.flatMap_cons, List.append_assoc]

lemma length_behind (srcs : List Stored) (tail : List (BitVec 8)) : 12 ≤ (behind srcs tail).length := by
  simp [behind, lastHeader, bytes16, bytes64]
  omega

lemma drop_behind {bytes rest : List (BitVec 8)} (here : file.drop pos = bytes ++ rest) :
    file.drop (pos + bytes.length) = rest := by
  rw [← List.drop_drop, here, List.drop_left]

/-- The sectors that are read begin with the one at the first header. -/
lemma readHeaders_cons {fuel : Nat} (read : readHeaders file fuel pos = some (some sectors)) {sector : XESector}
    {next : Nat} (found : readHeader file pos = some (some (sector, next))) :
    ∃ fuel' others, readHeaders file fuel' next = some (some others) ∧ sectors = sector :: others := by
  cases fuel with
  | zero => cases read
  | succ fuel =>
    simp only [readHeaders, found] at read
    obtain ⟨_ | others, rest, is⟩ := Option.map_eq_some_iff.mp read
    · cases is
    · exact ⟨fuel, others, rest, (Option.some.inj is).symm⟩

lemma readHeaders_isSome {fuel : Nat} (read : readHeaders file fuel pos = some (some sectors)) :
    ∃ out, readHeader file pos = some out := by
  cases fuel with
  | zero => cases read
  | succ fuel =>
    cases found : readHeader file pos with
    | none => simp [readHeaders, found] at read
    | some out => exact ⟨out, rfl⟩

/-- The reader takes the second half of a length of zero for the beginning of a header. -/
lemma not_readBack_inside (here : file.drop pos = [0, 0, 0, 0] ++ behind srcs tail) {fuel : Nat}
    (read : readHeaders file fuel pos = some (some sectors)) : ¬ReadBack (pos + 4) srcs sectors := by
  intro back
  obtain ⟨out, found⟩ := readHeaders_isSome read
  obtain ⟨sector, next, length, rfl, isLength, type, offset, stored⟩ := readHeader_inside here found
  obtain ⟨_, others, -, rfl⟩ := readHeaders_cons read found
  cases srcs with
  | nil => exact back
  | cons src srcs =>
    obtain ⟨isType, isOffset, isStored, -⟩ := back.1
    rw [offset] at isOffset
    cases empty : src.contents with
    | some contents =>
      rw [empty, Option.isSome_some, if_pos rfl] at isOffset
      split at isOffset <;> omega
    | none =>
      rw [empty, Option.isSome_none, if_neg Bool.false_ne_true] at isOffset
      -- Only a length that is not zero leads to the offset, and what is read for it is not the length of the sector.
      split at isOffset
      · rename_i positive
        have zeros : (behind (src :: srcs) tail).drop 8 = [0, 0, 0, 0] ++ behind srcs tail := by
          simp [behind_cons, Stored.bytes, Stored.length, empty, bytes16, bytes64]
        have none : length = 0 := by
          rw [stored positive 0 (by rw [zeros]; rfl)] at isStored
          simpa [Stored.length, Stored.padding, empty] using isStored
        rw [none] at positive
        exact absurd positive (by decide)
      · omega

lemma ReadBack.readable (here : file.drop pos = behind srcs tail) (small : file.length < 2 ^ 63) {fuel : Nat}
    (read : readHeaders file fuel pos = some (some sectors)) (back : ReadBack pos srcs sectors) :
    ∀ src ∈ srcs, src.Readable := by
  induction srcs generalizing pos fuel sectors with
  | nil => simp
  | cons src srcs ih =>
    rw [behind_cons] at here
    have length := congrArg List.length here
    have long := length_behind srcs tail
    simp only [List.length_drop, List.length_append] at length
    cases full : src.contents with
    | none =>
      have size : src.bytes.length = 12 := by simp [Stored.bytes, Stored.length, full, bytes16, bytes64]
      obtain ⟨sector, found⟩ := readHeader_empty full here long (by omega)
      obtain ⟨_, others, rest, rfl⟩ := readHeaders_cons read found
      have inside : file.drop (pos + 8) = [0, 0, 0, 0] ++ behind srcs tail := by
        rw [← List.drop_drop, here]
        simp [Stored.bytes, Stored.length, full, bytes16, bytes64]
      have follows : ReadBack (pos + 8 + 4) srcs others := by
        simpa only [size] using back.2
      exact absurd follows (not_readBack_inside inside rest)
    | some contents =>
      have near : pos + src.bytes.length < 2 ^ 63 := by omega
      obtain ⟨location, found, located⟩ := Stored.readHeader_full full here long near
      obtain ⟨out, isOut⟩ := readHeaders_isSome read
      rw [isOut] at found
      split at found
      · cases found
      · rw [found] at isOut
        obtain ⟨_, others, rest, rfl⟩ := readHeaders_cons read isOut
        obtain ⟨-, -, isLength, isLocation⟩ := back.1
        have same : readBack src.length = src.length := by simpa using isLength
        have toNat := Stored.length_toNat full near
        have size := Stored.bytes_length full
        have clear : src.length.getLsbD 31 = false := clear_of_readBack (by omega) same
        have readable : src.Readable := by
          refine ⟨by simp [full], clear, fun node core address isLocated => ?_⟩
          have location_eq := isLocation node core address isLocated
          rw [located node core address isLocated] at location_eq
          exact readBack_eq_iff.mp (Prod.ext_iff.mp (Prod.ext_iff.mp (Option.some.inj location_eq)).2).2
        have next := (nextHeader_eq toNat (size ▸ near)).2
        rw [same, next, ← size] at rest
        exact List.forall_mem_cons.mpr ⟨readable, ih (drop_behind here) rest back.2⟩

lemma readBack_of_readable (here : file.drop pos = behind srcs tail) (small : file.length < 2 ^ 63)
    (readable : ∀ src ∈ srcs, src.Readable) :
    ∃ sectors, readHeaders file (srcs.length + 1) pos = some (some sectors) ∧ ReadBack pos srcs sectors := by
  induction srcs generalizing pos with
  | nil =>
    have last : readHeader file pos = some none := by
      rw [readHeader, here]
      rfl
    exact ⟨[], by rw [List.length_nil, readHeaders, last], trivial⟩
  | cons src srcs ih =>
    rw [behind_cons] at here
    have length := congrArg List.length here
    have long := length_behind srcs tail
    simp only [List.length_drop, List.length_append] at length
    obtain ⟨⟨nonempty, clear, address⟩, others⟩ := List.forall_mem_cons.mp readable
    obtain ⟨contents, full⟩ := Option.isSome_iff_exists.mp nonempty
    have near : pos + src.bytes.length < 2 ^ 63 := by omega
    have size := Stored.bytes_length full
    obtain ⟨location, found, located⟩ := Stored.readHeader_full full here long near
    obtain ⟨forward, next⟩ := nextHeader_eq (Stored.length_toNat full near) (size ▸ near)
    rw [readBack_of_clear clear, forward, next, ← size, if_neg Bool.false_ne_true] at found
    obtain ⟨sectors, rest, back⟩ := ih (drop_behind here) others
    have as : src.ReadAs pos ⟨pos + 16, src.type, src.length - src.padding.setWidth 64, location⟩ := by
      refine ⟨rfl, by rw [nonempty]; rfl, rfl, fun node core a isLocated => ?_⟩
      rw [located node core a isLocated, readBack_eq_iff.mpr (address node core a isLocated)]
    refine ⟨_ :: sectors, ?_, as, back⟩
    rw [readHeaders, found]
    exact congrArg (Option.map _) rest

end

/-- A file is read back as it was written exactly if no sector has the length zero and no sign of an `int` gets into a
length or an address. -/
theorem load_file_iff (version : BitVec 16) (srcs : List Stored) (tail : List (BitVec 8))
    (small : (file version srcs tail).length < 2 ^ 63) :
    (∃ fuel sectors, load (file version srcs tail) fuel = some (some (version, sectors)) ∧ ReadBack 8 srcs sectors) ↔
      ∀ src ∈ srcs, src.Readable := by
  have start : (file version srcs tail).take 4 = magic := rfl
  have isVersion : readU16 ((file version srcs tail).drop 4) = some version := readU16_bytes16 version _
  have here : (file version srcs tail).drop 8 = behind srcs tail := rfl
  have loads (fuel : Nat) : load (file version srcs tail) fuel =
      (readHeaders (file version srcs tail) fuel 8).map (·.map (version, ·)) := by
    rw [load, if_pos start, isVersion]
  constructor
  · rintro ⟨fuel, sectors, loaded, back⟩
    rw [loads] at loaded
    obtain ⟨_ | others, read, is⟩ := Option.map_eq_some_iff.mp loaded
    · cases is
    · obtain rfl : others = sectors := (Prod.ext_iff.mp (Option.some.inj is)).2
      exact back.readable here small read
  · intro readable
    obtain ⟨sectors, read, back⟩ := readBack_of_readable here small readable
    exact ⟨srcs.length + 1, sectors, by rw [loads, read]; rfl, back⟩

/-- Three bytes in a sector of a type that has no location. -/
def plainSector : Stored := ⟨1, (0, 0), some ⟨2, (0, 0, 0), [7, 7, 7]⟩, by decide⟩

theorem load_file_plain : ∃ fuel sectors, load (file 2 [plainSector] [9]) fuel = some (some (2, sectors)) ∧
    ReadBack 8 [plainSector] sectors :=
  (load_file_iff 2 [plainSector] [9] (by decide)).mpr <| List.forall_mem_singleton.mpr
    ⟨rfl, rfl, fun _ _ _ located => absurd located.1 (by decide)⟩

/-- A jump to an address in the upper half of the address space. -/
def highGoto : Stored := ⟨5, (0, 0), some ⟨0, (0, 0, 0), body (some (0, 1, 0x80000000)) []⟩, by decide⟩

/-- The sign of the low word of the address is read as its high word. -/
theorem high_address_signed :
    load (file 2 [highGoto] []) 2 = some (some (2, [⟨24, 5, 16, some (0, 1, 0xffffffff80000000)⟩])) ∧
      ¬ReadBack 8 [highGoto] [⟨24, 5, 16, some (0, 1, 0xffffffff80000000)⟩] := by
  refine ⟨by decide, fun back => ?_⟩
  have located : highGoto.Located 0 1 0x80000000 := ⟨rfl, _, rfl, [], rfl⟩
  have same := back.1.location 0 1 0x80000000 located
  exact absurd same (by decide)

end XE

end Axe
