import Axe.Instruction.Decode
import Mathlib.Data.Nat.Size

/-! The control registers of a system switch: the node and links they stand for, the
table of access rights, and the routines that pack the registers and take them apart. -/

namespace Axe

/-! ### The numbers of the registers -/

namespace SwitchReg

def deviceID3 : Nat := 0x3
def nodeID : Nat := 0x5
def clkDivider : Nat := 0x7
def dimensionDirection0 : Nat := 0xc
def slink0 : Nat := 0x20
def plink0 : Nat := 0x40
def xlink0 : Nat := 0x80
def xstatic0 : Nat := 0xa0

end SwitchReg

open SwitchReg

structure XLink where
  /-- The node and the number of the link at the other end. -/
  dest : Option (Nat × Nat) := none
  enabled : Bool := false
  fiveWire : Bool := false
  network : BitVec 8 := 0
  direction : BitVec 8 := 0
  interTokenDelay : BitVec 16 := 0
  interSymbolDelay : BitVec 16 := 0
  deriving DecidableEq, Repr

@[ext] structure SwitchNode where
  type : NodeType
  xLinks : List XLink
  nodeNumberBits : Nat
  directions : List (BitVec 8)
  nodeID : BitVec 32
  scratchReg : BitVec 32
  clkDividerReg : BitVec 32
  narrow : nodeNumberBits ≤ 16
  sized : directions.length = nodeNumberBits

/-- What an access ends in: `refused` stands for a false result, the last two for an index outside a table and
for the assertion at the end of `read` and `write`. -/
inductive Access (Value : Type) where
  | done (val : Value)
  | refused
  | outOfRange
  | unexpectedRegister
  deriving DecidableEq, Repr

def Access.map {Value Result : Type} (f : Value → Result) : Access Value → Access Result
  | .done val => .done (f val)
  | .refused => .refused
  | .outOfRange => .outOfRange
  | .unexpectedRegister => .unexpectedRegister

section

def mask32 (size : Nat) : BitVec 32 := BitVec.ofNat 32 (2 ^ size - 1)

/-- The mask that clears the old bits is not shifted to the field. -/
def setBitRange (x val : BitVec 32) (high low : Nat) : BitVec 32 :=
  x &&& ~~~mask32 (high - low + 1) ||| (val &&& mask32 (high - low + 1)) <<< low

def setBit (x : BitVec 32) (val : Bool) (bit : Nat) : BitVec 32 :=
  setBitRange x (BitVec.ofBool val |>.setWidth 32) bit bit

def getBitRange (val : BitVec 32) (high low : Nat) : BitVec 32 := val >>> low &&& mask32 (1 + high - low)

def getBit (val : BitVec 32) (shift : Nat) : Bool := getBitRange val shift shift ≠ 0

end

namespace SwitchNode

variable (node : SwitchNode)

/-! ### The table of access rights -/

def regRead : BitVec 8 := 1
def regWrite : BitVec 8 := 2
def regRW : BitVec 8 := 3

def initReg (flags : List (BitVec 8)) (num : Nat) (rights : BitVec 8) : List (BitVec 8) := flags.set num rights

def initDirectionRegs (flags : List (BitVec 8)) : Nat → List (BitVec 8)
  | 0 => flags
  | i + 1 => initReg (initDirectionRegs flags i) (dimensionDirection0 + i) regRW

def initLinkRegs (flags : List (BitVec 8)) : Nat → List (BitVec 8)
  | 0 => flags
  | i + 1 => initReg (initReg (initLinkRegs flags i) (slink0 + i) regRW) (xlink0 + i) regRW

def numLinkRegs : Nat := min node.xLinks.length (plink0 - slink0)

def numDirectionRegs : Nat := (node.nodeNumberBits + 7) / 8

def numRegs : Nat := xstatic0 + node.xLinks.length

/-- The table that `initRegisters` fills in; what it depends on does not change afterwards. -/
def regFlags : List (BitVec 8) :=
  let flags := initReg (List.replicate node.numRegs 0) SwitchReg.nodeID regRW
  let flags :=
    if node.type = .xs1G then initReg flags deviceID3 regRW else initDirectionRegs flags node.numDirectionRegs
  initReg (initLinkRegs flags node.numLinkRegs) clkDivider regRW

/-! ### Links -/

/-- Both ends of the link are enabled and agree on the number of wires. The source indexes the links of the other
node without a test; `XEReader` accepts no number that is outside its table. -/
def isConnected (nodes : Nat → SwitchNode) (xLink : XLink) : Bool :=
  xLink.enabled &&
    match xLink.dest with
    | none => false
    | some (other, num) =>
      match (nodes other).xLinks[num]? with
      | none => false
      | some otherEnd => otherEnd.enabled && xLink.fiveWire == otherEnd.fiveWire

def readXLinkStateReg (xLink : XLink) (isConnected : Bool) : BitVec 32 :=
  let val :=
    if node.type = .xs1G then
      setBitRange (setBitRange 0 (xLink.interTokenDelay.setWidth 32) 3 0) (xLink.interSymbolDelay.setWidth 32) 11 8
    else
      setBitRange (setBitRange 0 (xLink.interTokenDelay.setWidth 32) 10 0) (xLink.interSymbolDelay.setWidth 32) 21 11
  let val := if node.type ≠ .xs1G then setBit (setBit val isConnected 25) isConnected 26 else val
  setBit (setBit val xLink.fiveWire 30) xLink.enabled 31

/-- RESET and HELLO are ignored. -/
def writeXLinkStateReg (xLink : XLink) (val : BitVec 32) : XLink :=
  let (tokenDelay, symbolDelay) :=
    if node.type = .xs1G then (getBitRange val 3 0, getBitRange val 11 8)
    else (getBitRange val 10 0, getBitRange val 21 11)
  { xLink with
    interTokenDelay := tokenDelay.setWidth 16
    interSymbolDelay := symbolDelay.setWidth 16
    fiveWire := getBit val 30
    enabled := getBit val 31 }

def getDirectionBits : Nat := if node.nodeNumberBits = 0 then 0 else Nat.size (node.nodeNumberBits - 1)

def writeXLinkDirectionAndNetworkReg (xLink : XLink) (val : BitVec 32) : XLink :=
  { xLink with
    network := (getBitRange val 5 4).setWidth 8
    direction := (getBitRange val (8 + node.getDirectionBits + 1) 8).setWidth 8 }

def setXLink (num : Nat) (xLink : XLink) : SwitchNode := { node with xLinks := node.xLinks.set num xLink }

def withXLink {Value : Type} (num : Nat) (use : XLink → Access Value) : Access Value :=
  match node.xLinks[num]? with
  | none => .outOfRange
  | some xLink => use xLink

/-! ### Directions -/

/-- The loop of `readDirectionReg` over the first directions of a register. -/
def readDirections (offset : Nat) : Nat → Access (BitVec 32)
  | 0 => .done 0
  | i + 1 =>
    match readDirections offset i, node.directions[offset + i]? with
    | .done val, some direction => .done (val ||| direction.setWidth 32 <<< (i * 4))
    | _, _ => .outOfRange

def directionsEnd (offset : Nat) : Nat := min (offset + 8) node.nodeNumberBits

def readDirectionReg (offset : Nat) : Access (BitVec 32) :=
  node.readDirections offset (node.directionsEnd offset - offset)

def setDirection (num : Nat) (direction : BitVec 8) : SwitchNode :=
  { node with directions := node.directions.set num direction, sized := by rw [List.length_set, node.sized] }

def writeDirections (offset : Nat) (val : BitVec 32) : Nat → Access SwitchNode
  | 0 => .done node
  | i + 1 =>
    match writeDirections offset val i with
    | .done wrote =>
      if offset + i < wrote.directions.length then
        .done (wrote.setDirection (offset + i) ((val >>> (i * 4) &&& 0xf).setWidth 8))
      else .outOfRange
    | result => result

def writeDirectionReg (offset : Nat) (val : BitVec 32) : Access SwitchNode :=
  node.writeDirections offset val (node.directionsEnd offset - offset)

/-! ### Access -/

def getNonNodeNumberBits : Nat := 16 - node.nodeNumberBits

def writeNodeId (val : BitVec 32) : SwitchNode :=
  { node with nodeID := val >>> node.getNonNodeNumberBits <<< node.getNonNodeNumberBits }

/-- The test for the access rights; the number of registers itself passes the first of its two comparisons. -/
def checkRights {Value : Type} (num : Nat) (right : BitVec 8) (access : Access Value) : Access Value :=
  if node.numRegs < num then .refused
  else
    match node.regFlags[num]? with
    | none => .outOfRange
    | some flags => if flags &&& right = 0 then .refused else access

def readOther (num : Nat) : Access (BitVec 32) :=
  if num = dimensionDirection0 ∨ num = dimensionDirection0 + 1 then
    node.readDirectionReg ((num - dimensionDirection0) * 8)
  else if num = SwitchReg.nodeID then .done node.nodeID
  else if num = deviceID3 then .done node.scratchReg
  else .unexpectedRegister

/-- The value of a direction and network register is computed, but the branch does not return. -/
def read (nodes : Nat → SwitchNode) (num : Nat) : Access (BitVec 32) :=
  node.checkRights num regRead <|
    if slink0 ≤ num ∧ num < plink0 then node.withXLink (num - slink0) fun _ => node.readOther num
    else if xlink0 ≤ num ∧ num < xstatic0 then
      node.withXLink (num - xlink0) fun xLink => .done (node.readXLinkStateReg xLink (isConnected nodes xLink))
    else node.readOther num

def writeOther (num : Nat) (val : BitVec 32) : Access SwitchNode :=
  if num = dimensionDirection0 ∨ num = dimensionDirection0 + 1 then
    node.writeDirectionReg ((num - dimensionDirection0) * 8) val
  else if num = SwitchReg.nodeID then .done (node.writeNodeId val)
  else if num = deviceID3 then .done { node with scratchReg := val }
  else if num = clkDivider then .done { node with clkDividerReg := val }
  else .unexpectedRegister

def write (num : Nat) (val : BitVec 32) : Access SwitchNode :=
  node.checkRights num regWrite <|
    if slink0 ≤ num ∧ num < plink0 then
      node.withXLink (num - slink0) fun xLink =>
        .done (node.setXLink (num - slink0) (node.writeXLinkDirectionAndNetworkReg xLink val))
    else if xlink0 ≤ num ∧ num < xstatic0 then
      node.withXLink (num - xlink0) fun xLink =>
        .done (node.setXLink (num - xlink0) (node.writeXLinkStateReg xLink val))
    else node.writeOther num val

end SwitchNode

end Axe
