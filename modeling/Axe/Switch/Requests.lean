import Axe.Channel.Operations
import Axe.Library.Runs

/-! The requests to a system switch. Tokens are collected one by one or in batches, up to
the length of the longest request; an END token takes what was collected for a request, if
it has the form of one. -/

namespace Axe

open List

def ctAck : BitVec 8 := 3
def ctNack : BitVec 8 := 4
def ctWritec : BitVec 8 := 0xc0
def ctReadc : BitVec 8 := 0xc1

structure Request where
  write : Bool
  returnNode : BitVec 16
  returnNum : BitVec 8
  regNum : BitVec 16
  data : BitVec 32
  deriving DecidableEq, Repr

def writeRequestLength : Nat := 1 + 3 + 2 + 4
def readRequestLength : Nat := 1 + 3 + 2

section

variable (buf : List Token)

def tokenValue (i : Nat) : BitVec 8 := (buf.getD i ⟨0, false⟩).value

def read16 (i : Nat) : BitVec 16 := tokenValue buf i ++ tokenValue buf (i + 1)

def read32 (i : Nat) : BitVec 32 :=
  tokenValue buf i ++ tokenValue buf (i + 1) ++ tokenValue buf (i + 2) ++ tokenValue buf (i + 3)

def containsControlToken (toks : List Token) : Bool := toks.any (·.control)

/-- The part of `parseRequest` after the first token has been looked at. -/
def parseBody (write : Bool) : Option Request :=
  let expectedLength := if write then writeRequestLength else readRequestLength
  if buf.length ≠ expectedLength then none
  else if containsControlToken buf.tail then none
  else
    some
      { write := write
        returnNode := read16 buf 1
        returnNum := tokenValue buf 3
        regNum := read16 buf 4
        data := if write then read32 buf 6 else 0 }

def parseRequest : Option Request :=
  match buf with
  | [] => none
  | first :: _ =>
    if !first.control then none
    else if first.value = ctReadc then parseBody buf false
    else if first.value = ctWritec then parseBody buf true
    else none

end

/-- What a switch has received since the last END token: the tokens in its buffer, and whether there were too many. -/
structure Receiver where
  buf : List Token := []
  junkIncomingTokens : Bool := false
  deriving DecidableEq, Repr

namespace Receiver

variable (rcv : Receiver)

def pushToken (token : Token) : Receiver :=
  if rcv.junkIncomingTokens then rcv
  else if rcv.buf.length = writeRequestLength then { rcv with junkIncomingTokens := true }
  else { rcv with buf := rcv.buf ++ [token] }

def receiveDataToken (val : BitVec 8) : Receiver := rcv.pushToken ⟨val, false⟩

/-- The sum is one of 32-bit words in the source; the callers pass the four bytes of a word. -/
def receiveDataTokens (vals : List (BitVec 8)) : Receiver :=
  if rcv.junkIncomingTokens then rcv
  else if writeRequestLength < rcv.buf.length + vals.length then { rcv with junkIncomingTokens := true }
  else { rcv with buf := rcv.buf ++ vals.map (⟨·, false⟩) }

def request : Option Request := if rcv.junkIncomingTokens then none else parseRequest rcv.buf

/-- What `receiveCtrlToken` does to the buffer; END empties it and PAUSE leaves it. -/
def receiveCtrlToken (val : BitVec 8) : Receiver :=
  if val = ctEnd then {}
  else if val = ctPause then rcv
  else rcv.pushToken ⟨val, true⟩

end Receiver

inductive Delivered where
  | dataToken (val : BitVec 8)
  | dataTokens (vals : List (BitVec 8))
  | ctrlToken (val : BitVec 8)
  deriving DecidableEq, Repr

def Receiver.receive (rcv : Receiver) : Delivered → Receiver
  | .dataToken val => rcv.receiveDataToken val
  | .dataTokens vals => rcv.receiveDataTokens vals
  | .ctrlToken val => rcv.receiveCtrlToken val

def Delivered.tokens : Delivered → List Token
  | .dataToken val => [⟨val, false⟩]
  | .dataTokens vals => vals.map (⟨·, false⟩)
  | .ctrlToken val => [⟨val, true⟩]

/-! ### What requests look like -/

def dataTokens (vals : List (BitVec 8)) : List Token := vals.map (⟨·, false⟩)

/-- The tokens spell the request: its kind, then its fields with the most significant byte first. -/
def Spells (toks : List Token) (request : Request) : Prop :=
  (∃ node1 node0 num reg1 reg0, toks = ⟨ctReadc, true⟩ :: dataTokens [node1, node0, num, reg1, reg0] ∧
      request = ⟨false, node1 ++ node0, num, reg1 ++ reg0, 0⟩) ∨
  ∃ node1 node0 num reg1 reg0 data3 data2 data1 data0,
    toks = ⟨ctWritec, true⟩ :: dataTokens [node1, node0, num, reg1, reg0, data3, data2, data1, data0] ∧
      request = ⟨true, node1 ++ node0, num, reg1 ++ reg0, data3 ++ data2 ++ data1 ++ data0⟩

def sinceEnd (toks : List Token) : Delivered → List Token
  | .ctrlToken val => if val = ctEnd then [] else if val = ctPause then toks else toks ++ [⟨val, true⟩]
  | call => toks ++ call.tokens

lemma data_of_not_containsControlToken {toks : List Token} (noControl : containsControlToken toks = false) :
    toks = dataTokens (toks.map (·.value)) := by
  induction toks with
  | nil => rfl
  | cons token rest ih =>
    obtain ⟨plain, others⟩ : token.control = false ∧ containsControlToken rest = false := by
      simpa [containsControlToken] using noControl
    have same : token = ⟨token.value, false⟩ := by rw [← plain]
    rw [dataTokens, map_map, map_cons, Function.comp_apply, ← same]
    exact congrArg (token :: ·) (by simpa [dataTokens] using ih others)

variable {request : Request}

lemma parseBody_inv {buf : List Token} {write : Bool} (got : parseBody buf write = some request) :
    buf.length = (if write then writeRequestLength else readRequestLength) ∧ containsControlToken buf.tail = false ∧
      request = ⟨write, read16 buf 1, tokenValue buf 3, read16 buf 4, if write then read32 buf 6 else 0⟩ := by
  simp only [parseBody] at got
  by_cases length : buf.length = (if write then writeRequestLength else readRequestLength)
  · rw [if_neg (not_not_intro length)] at got
    cases noControl : containsControlToken buf.tail with
    | true => simp [noControl] at got
    | false =>
      rw [noControl, if_neg Bool.false_ne_true] at got
      exact ⟨length, rfl, (Option.some.inj got).symm⟩
  · rw [if_pos length] at got
    cases got

variable {first : Token} {rest : List Token}

lemma parseBody_read (got : parseBody (first :: rest) false = some request) :
    ∃ node1 node0 num reg1 reg0, rest = dataTokens [node1, node0, num, reg1, reg0] ∧
      request = ⟨false, node1 ++ node0, num, reg1 ++ reg0, 0⟩ := by
  obtain ⟨len, noControl, made⟩ := parseBody_inv got
  obtain ⟨vals, rfl⟩ : ∃ vals, rest = dataTokens vals := ⟨_, data_of_not_containsControlToken noControl⟩
  have five : vals.length = 5 := by simpa [dataTokens, readRequestLength] using len
  match vals, five with
  | [node1, node0, num, reg1, reg0], _ => exact ⟨node1, node0, num, reg1, reg0, rfl, made⟩

lemma parseBody_write (got : parseBody (first :: rest) true = some request) :
    ∃ node1 node0 num reg1 reg0 data3 data2 data1 data0,
      rest = dataTokens [node1, node0, num, reg1, reg0, data3, data2, data1, data0] ∧
        request = ⟨true, node1 ++ node0, num, reg1 ++ reg0, data3 ++ data2 ++ data1 ++ data0⟩ := by
  obtain ⟨len, noControl, made⟩ := parseBody_inv got
  obtain ⟨vals, rfl⟩ : ∃ vals, rest = dataTokens vals := ⟨_, data_of_not_containsControlToken noControl⟩
  have nine : vals.length = 9 := by simpa [dataTokens, writeRequestLength] using len
  match vals, nine with
  | [node1, node0, num, reg1, reg0, data3, data2, data1, data0], _ =>
    exact ⟨node1, node0, num, reg1, reg0, data3, data2, data1, data0, rfl, made⟩

lemma parseRequest_eq_some_iff {buf : List Token} : parseRequest buf = some request ↔ Spells buf request := by
  constructor
  · intro got
    unfold parseRequest at got
    split at got
    · cases got
    · rename_i first rest
      obtain ⟨val, control⟩ := first
      cases control with
      | false => cases got
      | true =>
        dsimp only [Bool.not_true] at got
        split at got
        · cases got
        split at got
        · rename_i isRead
          obtain ⟨node1, node0, num, reg1, reg0, spelled, made⟩ := parseBody_read got
          exact .inl ⟨node1, node0, num, reg1, reg0, by rw [isRead, spelled], made⟩
        · split at got
          · rename_i isWrite
            obtain ⟨node1, node0, num, reg1, reg0, data3, data2, data1, data0, spelled, made⟩ := parseBody_write got
            exact .inr ⟨node1, node0, num, reg1, reg0, data3, data2, data1, data0, by rw [isWrite, spelled], made⟩
          · cases got
  · rintro (⟨node1, node0, num, reg1, reg0, rfl, rfl⟩ |
      ⟨node1, node0, num, reg1, reg0, data3, data2, data1, data0, rfl, rfl⟩) <;> rfl

lemma Spells.length_le {toks : List Token} (spells : Spells toks request) :
    toks.length ≤ writeRequestLength := by
  obtain ⟨_, _, _, _, _, rfl, -⟩ | ⟨_, _, _, _, _, _, _, _, _, rfl, -⟩ := spells <;>
    simp [dataTokens, writeRequestLength]

/-! ### What has been received -/

structure Receiver.Holds (rcv : Receiver) (toks : List Token) : Prop where
  bounded : rcv.buf.length ≤ writeRequestLength
  held : rcv.junkIncomingTokens = false → rcv.buf = toks
  junked : rcv.junkIncomingTokens = true → writeRequestLength < toks.length

namespace Receiver

variable {rcv : Receiver} {toks : List Token}

lemma Holds.initial : ({} : Receiver).Holds [] := ⟨Nat.zero_le _, fun _ => rfl, nofun⟩

section

variable (holds : rcv.Holds toks)
include holds

lemma Holds.junk_append (junked : rcv.junkIncomingTokens = true)
    (more : List Token) : rcv.Holds (toks ++ more) := by
  have long := holds.junked junked
  have longer : writeRequestLength < (toks ++ more).length := by
    rw [length_append]
    omega
  exact ⟨holds.bounded, fun kept => absurd (junked.symm.trans kept) (by decide), fun _ => longer⟩

lemma Holds.pushToken (token : Token) : (rcv.pushToken token).Holds (toks ++ [token]) := by
  unfold Receiver.pushToken
  cases junked : rcv.junkIncomingTokens with
  | true => exact holds.junk_append junked _
  | false =>
    have kept := holds.held junked
    have le := holds.bounded
    rw [if_neg (by simp)]
    split
    · rename_i full
      refine ⟨le, nofun, fun _ => ?_⟩
      rw [length_append, ← kept, full]
      exact Nat.lt_succ_self _
    · rename_i room
      refine ⟨?_, fun _ => by rw [← kept], nofun⟩
      rw [length_append, length_singleton]
      omega

lemma Holds.receiveDataTokens (vals : List (BitVec 8)) :
    (rcv.receiveDataTokens vals).Holds (toks ++ dataTokens vals) := by
  unfold Receiver.receiveDataTokens
  cases junked : rcv.junkIncomingTokens with
  | true => exact holds.junk_append junked _
  | false =>
    have kept := holds.held junked
    have size : (dataTokens vals).length = vals.length := length_map ..
    rw [if_neg (by simp)]
    split
    · refine ⟨holds.bounded, nofun, fun _ => ?_⟩
      rw [length_append, ← kept, size]
      assumption
    · refine ⟨?_, fun _ => by rw [← kept]; rfl, nofun⟩
      rw [length_append, length_map]
      omega

lemma Holds.receive (call : Delivered) : (rcv.receive call).Holds (sinceEnd toks call) := by
  cases call with
  | dataToken val => exact holds.pushToken _
  | dataTokens vals => exact holds.receiveDataTokens vals
  | ctrlToken val =>
    unfold Receiver.receive Receiver.receiveCtrlToken sinceEnd
    dsimp only
    split
    · exact .initial
    · split
      · exact holds
      · exact holds.pushToken _

lemma Holds.run (calls : List Delivered) :
    (calls.foldl Receiver.receive rcv).Holds (calls.foldl sinceEnd toks) := by
  induction calls generalizing rcv toks with
  | nil => exact holds
  | cons call calls ih => exact ih (holds.receive call)

lemma Holds.request_eq_some_iff (request : Request) : rcv.request = some request ↔ Spells toks request := by
  unfold Receiver.request
  cases junked : rcv.junkIncomingTokens with
  | true =>
    have long := holds.junked junked
    simp only [if_true, reduceCtorEq, false_iff]
    exact fun spells => Nat.not_le_of_lt long spells.length_le
  | false =>
    rw [if_neg (by simp), holds.held junked]
    exact parseRequest_eq_some_iff

end

/-- However the tokens are cut into calls, an END token is taken for a request exactly when the tokens since the
last one spell it; then everything starts anew, and the buffer never holds more than the longest request. -/
theorem request_exact (calls : List Delivered) : let rcv := calls.foldl Receiver.receive {}
    rcv.buf.length ≤ 10 ∧
      (∀ request, rcv.request = some request ↔ Spells (calls.foldl sinceEnd []) request) ∧
      rcv.receive (.ctrlToken ctEnd) = {} := by
  intro rcv
  have holds : rcv.Holds (calls.foldl sinceEnd []) := Holds.initial.run calls
  exact ⟨holds.bounded, holds.request_eq_some_iff, rfl⟩

end Receiver

end Axe
