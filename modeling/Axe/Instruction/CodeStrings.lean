import Mathlib.Data.List.TakeWhile
import Mathlib.Tactic.Choose

/-! The scanner of the code strings from which the instruction functions are generated. It copies
characters and has an emitter called for each directive; the emitters of the directives with
arguments call the scanner for these. -/

namespace Axe.CodeEmitter

open List

/-- The directives that are words, in the order in which they are tried. -/
inductive Directive where
  | nextPc
  | exception
  | kCall
  | pauseOn
  | yield
  | deschedule
  | storeWord
  | storeShort
  | storeByte
  | loadWord
  | loadShort
  | loadByte
  | writePc
  | writePcUnchecked
  | incrementPcUnchecked
  deriving DecidableEq

open Directive

def directives : List Directive :=
  [nextPc, exception, kCall, pauseOn, yield, deschedule, storeWord, storeShort, storeByte, loadWord, loadShort,
    loadByte, writePc, writePcUnchecked, incrementPcUnchecked]

/-- What is compared, and by how much the index is moved on. -/
def Directive.entry : Directive → String × Nat
  | nextPc => ("pc", 1)
  | exception => ("exception(", 10)
  | kCall => ("kcall(", 6)
  | pauseOn => ("pause_on(", 9)
  | yield => ("yield", 4)
  | deschedule => ("deschedule", 10)
  | storeWord => ("store_word(", 11)
  | storeShort => ("store_short(", 12)
  | storeByte => ("store_byte(", 11)
  | loadWord => ("load_word(", 10)
  | loadShort => ("load_short(", 11)
  | loadByte => ("load_byte(", 10)
  | writePc => ("write_pc(", 9)
  | writePcUnchecked => ("write_pc_unchecked(", 19)
  | incrementPcUnchecked => ("increment_pc_unchecked(", 23)

def Directive.word (d : Directive) : List Char := d.entry.1.toList

def Directive.bracketed (d : Directive) : Bool := d.word.getLast? = some '('

/-- A call of an emitter. -/
inductive Call where
  | raw (c : Char)
  | percent
  | op (digits : List Char)
  | plain (d : Directive)
  | bracket (d : Directive) (args : List Char)
  deriving DecidableEq

/-- How a bracket or another character changes the level; quotes and the end of the C string are not accepted. -/
def nest (level : Nat) (c : Char) : Option Nat :=
  if c = '(' then some (level + 1)
  else if c = ')' then (if level = 0 then none else some (level - 1))
  else if c = '\'' ∨ c = '"' ∨ c = '\x00' then none
  else some level

/-- The distance to the closing bracket; `level` is one less than `indentLevel`. -/
def scanClosingBracket : Nat → List Char → Option Nat
  | _, [] => none
  | level, c :: s =>
    if c = ')' ∧ level = 0 then some 0 else (nest level c).bind fun level => (scanClosingBracket level s).map (· + 1)

/-- What follows a `%`: the call, and how far the index is moved on in all; `none` if it is an error. -/
def directive (s : List Char) : Option (Call × Nat) :=
  match s with
  | [] => none
  | c :: _ =>
    if c = '%' then some (.percent, 1)
    else if c.isDigit then
      let digits := s.takeWhile Char.isDigit
      some (.op digits, digits.length)
    else do
      let d ← directives.find? fun d => d.word.isPrefixOf s
      if d.bracketed then
        let close ← scanClosingBracket 0 (s.drop d.entry.2)
        some (.bracket d ((s.drop d.entry.2).take close), d.entry.2 + close + 1)
      else some (.plain d, d.entry.2 + 1)

/-! ### Reading a code string -/

def Call.text : Call → List Char
  | .raw c => [c]
  | .percent => ['%', '%']
  | .op digits => '%' :: digits
  | .plain d => '%' :: d.word
  | .bracket d args => '%' :: (d.word ++ args ++ [')'])

/-- The call is well formed, if this comes after it. -/
def Call.Fits (rest : List Char) : Call → Prop
  | .raw c => c ≠ '%'
  | .percent => True
  | .op digits => digits ≠ [] ∧ (digits ++ rest).takeWhile Char.isDigit = digits
  | .plain d => d.bracketed = false
  | .bracket d args => d.bracketed = true ∧ args.foldlM nest 0 = some 0

section

variable {s rest : List Char} {call : Call} {level n : Nat}

lemma scan_of_balanced {args : List Char} (balanced : args.foldlM nest level = some 0) :
    scanClosingBracket level (args ++ ')' :: rest) = some args.length := by
  induction args generalizing level with
  | nil =>
    obtain rfl : level = 0 := Option.some.inj balanced
    rfl
  | cons c args ih =>
    obtain ⟨next, moved, balanced⟩ := Option.bind_eq_some_iff.mp balanced
    have inner : ¬ (c = ')' ∧ level = 0) := by
      rintro ⟨rfl, rfl⟩
      cases moved
    rw [cons_append, scanClosingBracket, if_neg inner, moved, Option.bind_some, ih balanced]
    rfl

lemma balanced_of_scan (found : scanClosingBracket level s = some n) :
    (s.take n).foldlM nest level = some 0 ∧ s = s.take n ++ ')' :: s.drop (n + 1) := by
  induction s generalizing level n with
  | nil => cases found
  | cons c s ih =>
    rw [scanClosingBracket] at found
    split at found
    next closes =>
      obtain rfl : 0 = n := Option.some.inj found
      obtain ⟨rfl, rfl⟩ := closes
      exact ⟨rfl, rfl⟩
    next =>
      obtain ⟨next, moved, found⟩ := Option.bind_eq_some_iff.mp found
      obtain ⟨n, inner, rfl⟩ := Option.map_eq_some_iff.mp found
      obtain ⟨balanced, split⟩ := ih inner
      exact ⟨Option.bind_eq_some_iff.mpr ⟨next, moved, balanced⟩, congrArg (c :: ·) split⟩

/-- The amounts are right but for one. -/
lemma count_eq (d : Directive) : (d.bracketed = true → d.entry.2 = d.word.length) ∧
    (d.bracketed = false → d ≠ deschedule → d.entry.2 + 1 = d.word.length) := by
  cases d <;> decide

lemma directive_word (d : Directive) (rest : List Char) : directive (d.word ++ rest) =
    if d.bracketed then (scanClosingBracket 0 rest).bind fun close =>
      some (.bracket d (rest.take close), d.entry.2 + close + 1)
    else some (.plain d, d.entry.2 + 1) := by
  cases d <;> rfl

lemma directive_fits (read : directive s = some (call, n)) :
    ∃ rest, '%' :: s = call.text ++ rest ∧ call.Fits rest := by
  match s with
  | c :: s =>
    have word := read
    rw [directive] at read
    split_ifs at read with percent digit
    · subst percent
      cases read
      exact ⟨s, rfl, trivial⟩
    · cases read
      have split := takeWhile_append_dropWhile (p := Char.isDigit) (l := c :: s)
      exact ⟨_, congrArg ('%' :: ·) split.symm, by simp [digit], congrArg (takeWhile Char.isDigit) split⟩
    · obtain ⟨d, found, -⟩ := Option.bind_eq_some_iff.mp read
      have begins := find?_some found
      obtain ⟨rest, split⟩ := isPrefixOf_iff_prefix.mp begins
      rw [← split, directive_word] at word
      split at word
      next bracketed =>
        obtain ⟨close, scanned, same⟩ := Option.bind_eq_some_iff.mp word
        cases same
        obtain ⟨balanced, closed⟩ := balanced_of_scan scanned
        refine ⟨rest.drop (close + 1), ?_, bracketed, balanced⟩
        rw [← split, Call.text, cons_append, append_assoc, append_assoc, singleton_append, ← closed]
      next plain =>
        cases word
        exact ⟨rest, by rw [← split]; rfl, Bool.eq_false_iff.mpr plain⟩

/-- What the loop does with a character, and for a directive with those that belong to it. -/
def step (c : Char) (s : List Char) : Option (Call × Nat) := if c = '%' then directive s else some (.raw c, 0)

lemma step_fits {c : Char} (read : step c s = some (call, n)) :
    ∃ rest, c :: s = call.text ++ rest ∧ call.Fits rest := by
  unfold step at read
  split at read
  next percent => exact percent ▸ directive_fits read
  next other =>
    cases read
    exact ⟨s, rfl, other⟩

lemma rest_lt (call : Call) (rest : List Char) : rest.length < (call.text ++ rest).length := by
  have pos : 0 < call.text.length := by cases call <;> simp [Call.text]
  rw [length_append]
  omega

end

/-! ### Emitting it -/

/-- The strings that the emitters of the directives with arguments hand to `emitNested` in turn; `none` if an
assertion on the arguments fails. -/
structure Emitter where
  nested : Directive → List Char → Option (List (List Char))
  shorter : ∀ d args pieces, nested d args = some pieces → ∀ piece ∈ pieces, piece.length ≤ args.length

def Emitter.pieces (emitter : Emitter) : Call → Option (List (List Char))
  | .bracket d args => emitter.nested d args
  | _ => some []

def codePropertyExtractor : Emitter where
  nested := fun _ args => some [args]
  shorter := by simp

lemma splitOn_length {s piece : List Char} {delim : Char} (mem : piece ∈ s.splitOn delim) :
    piece.length ≤ s.length := by
  induction s generalizing piece with
  | nil => simp_all
  | cons c s ih =>
    rw [List.splitOn, List.splitOnP_cons_eq_if_modifyHead] at mem
    split at mem
    next =>
      rcases List.mem_cons.mp mem with rfl | later
      · exact Nat.zero_le _
      · exact (ih later).trans (Nat.le_succ _)
    next =>
      cases split : s.splitOnP (· == delim) with
      | nil => simp [split] at mem
      | cons first more =>
        rw [split, List.modifyHead_cons] at mem
        rcases List.mem_cons.mp mem with rfl | later
        · exact Nat.succ_le_succ (ih (by rw [List.splitOn, split]; exact List.mem_cons_self))
        · exact (ih (by rw [List.splitOn, split]; exact List.mem_cons_of_mem _ later)).trans (Nat.le_succ _)

/-- A load or store has two arguments, of which the address is emitted first. -/
def functionCodeEmitter : Emitter where
  nested := fun d args =>
    if d ∈ [storeWord, storeShort, storeByte, loadWord, loadShort, loadByte] then
      match args.splitOn ',' with
      | [value, addr] => some [addr, value]
      | _ => none
    else some [args]
  shorter := by
    intro d args pieces handed piece mem
    split at handed
    next =>
      split at handed
      next value addr split =>
        cases handed
        have whole : piece ∈ args.splitOn ',' := by
          rw [split]
          simpa [or_comm] using mem
        exact splitOn_length whole
      next => cases handed
    next =>
      cases handed
      simp_all

inductive Outcome where
  | done (calls : List Call)
  /-- An error message, or an assertion that fails. -/
  | exit
  /-- The index is past the end of the string. -/
  | overrun
  deriving DecidableEq

def Outcome.after (call : Call) : Outcome → Outcome
  | done calls => done (call :: calls)
  | outcome => outcome

/-- What comes after a string that has been emitted. -/
def Outcome.andThen : Outcome → Outcome → Outcome
  | done _, next => next
  | outcome, _ => outcome

lemma Emitter.piece_lt (emitter : Emitter) {call : Call} {piece : List Char} {pieces : List (List Char)}
    (handed : emitter.pieces call = some pieces) (mem : piece ∈ pieces) (rest : List Char) :
    piece.length < (call.text ++ rest).length := by
  cases call with
  | bracket d args =>
    have le := emitter.shorter d args pieces handed piece mem
    simp only [Call.text, cons_append, append_assoc, length_cons, length_append]
    omega
  | _ =>
    cases handed
    cases mem

section

variable (emitter : Emitter)

def emitNested (code : List Char) : Outcome :=
  match code with
  | [] => .done []
  | c :: s =>
    match _read : step c s with
    | none => .exit
    | some (call, n) =>
      match _handed : emitter.pieces call with
      | none => .exit
      | some pieces =>
        pieces.attach.foldr (fun piece next => (emitNested piece.1).andThen next)
          (if s.length < n then .overrun else (emitNested (s.drop n)).after call)
termination_by code.length
decreasing_by
  · obtain ⟨rest, split, -⟩ := step_fits ‹_›
    exact split ▸ emitter.piece_lt ‹_› piece.2 rest
  · rw [List.length_drop, List.length_cons]
    omega

/-- The outcome of emitting the strings that a call hands on, and of what comes after them. -/
def emitPieces (pieces : List (List Char)) (next : Outcome) : Outcome :=
  pieces.foldr (fun piece next => (emitNested emitter piece).andThen next) next

end

/-- The calls, at every depth, are those that the string is made of. -/
inductive Reads (emitter : Emitter) : List Char → List Call → Prop where
  | nil : Reads emitter [] []
  | cons {call : Call} {rest : List Char} {calls : List Call} {pieces : List (List Char)}
      (inner : List Char → List Call) : call.Fits rest → emitter.pieces call = some pieces →
      (∀ piece ∈ pieces, emitNested emitter piece = .done (inner piece)) →
      (∀ piece ∈ pieces, Reads emitter piece (inner piece)) → Reads emitter rest calls →
      Reads emitter (call.text ++ rest) (call :: calls)

/-- One of the directives, at any depth, is `%deschedule`. -/
inductive Deschedules (emitter : Emitter) : List Char → Prop where
  | here (rest : List Char) : Deschedules emitter ((Call.plain deschedule).text ++ rest)
  | inside {call : Call} {rest piece : List Char} {pieces : List (List Char)} : call.Fits rest →
      emitter.pieces call = some pieces → piece ∈ pieces → Deschedules emitter piece →
      Deschedules emitter (call.text ++ rest)
  | later {call : Call} {rest : List Char} : call ≠ .plain deschedule → call.Fits rest → Deschedules emitter rest →
      Deschedules emitter (call.text ++ rest)

variable {emitter : Emitter} {code s rest : List Char} {call : Call} {calls : List Call}

lemma emitNested_step (c : Char) (s : List Char) : emitNested emitter (c :: s) =
    (step c s).elim .exit fun found => (emitter.pieces found.1).elim .exit fun pieces => emitPieces emitter pieces
      (if s.length < found.2 then .overrun else (emitNested emitter (s.drop found.2)).after found.1) := by
  rw [emitNested]
  split
  next none => simp [none]
  next call n read =>
    rw [read, Option.elim_some]
    split
    next none => rw [none, Option.elim_none]
    next pieces handed =>
      rw [handed, Option.elim_some, emitPieces]
      exact foldr_attach (f := fun piece next => (emitNested emitter piece).andThen next)

lemma emitNested_of_directive (read : directive (s ++ rest) = some (call, s.length)) :
    emitNested emitter ('%' :: (s ++ rest)) = (emitter.pieces call).elim .exit fun pieces =>
      emitPieces emitter pieces ((emitNested emitter rest).after call) := by
  have first : step '%' (s ++ rest) = some (call, s.length) := read
  have inside : ¬ (s ++ rest).length < s.length := by simp
  rw [emitNested_step, first, Option.elim_some]
  simp only [if_neg inside, drop_left]

lemma emitNested_append (other : call ≠ .plain deschedule) (fits : call.Fits rest) :
    emitNested emitter (call.text ++ rest) = (emitter.pieces call).elim .exit fun pieces =>
      emitPieces emitter pieces ((emitNested emitter rest).after call) := by
  cases call with
  | raw c =>
    have first : step c rest = some (.raw c, 0) := if_neg fits
    rw [Call.text, singleton_append, emitNested_step, first]
    rfl
  | percent => exact emitNested_of_directive (s := ['%']) rfl
  | op digits =>
    obtain ⟨some, all⟩ := fits
    apply emitNested_of_directive
    obtain ⟨c, more, rfl⟩ := exists_cons_of_ne_nil some
    have digit : c.isDigit := mem_takeWhile_imp (all ▸ mem_cons_self)
    have notPercent : c ≠ '%' := fun same => by simp [same] at digit
    rw [cons_append] at all ⊢
    rw [directive, if_neg notPercent, if_pos digit, all]
  | plain d =>
    apply emitNested_of_directive
    rw [directive_word, if_neg (Bool.eq_false_iff.mp fits), (count_eq d).2 fits fun same => other (congrArg _ same)]
  | bracket d args =>
    rw [Call.text, cons_append]
    apply emitNested_of_directive
    rw [append_assoc, append_assoc, directive_word, if_pos fits.1, singleton_append, scan_of_balanced fits.2,
      (count_eq d).1 fits.1]
    simp [Nat.add_assoc]

lemma emitNested_deschedule (rest : List Char) : emitNested emitter ((Call.plain deschedule).text ++ rest) =
    if rest = [] then .overrun else (emitNested emitter (rest.drop 1)).after (.plain deschedule) := by
  have first : step '%' (deschedule.word ++ rest) = some (.plain deschedule, 11) := directive_word deschedule rest
  rw [Call.text, cons_append, emitNested_step, first]
  cases rest with
  | nil => rfl
  | cons c rest =>
    have inside : ¬ (deschedule.word ++ c :: rest).length < 11 := by simp [Directive.word, Directive.entry]
    exact if_neg (t := Outcome.overrun) inside

/-- A string that is not rejected begins with a call. -/
lemma emitNested_cons {c : Char} (accepted : emitNested emitter (c :: s) ≠ .exit) :
    ∃ call : Call, ∃ rest, c :: s = call.text ++ rest ∧ call.Fits rest := by
  cases read : step c s with
  | none => simp [emitNested_step, read] at accepted
  | some found => exact ⟨found.1, step_fits read⟩

/-! ### The strings that a call hands on -/

section

variable {pieces : List (List Char)} {next : Outcome}

lemma emitPieces_done (done : emitPieces emitter pieces next = .done calls) :
    next = .done calls ∧ ∀ piece ∈ pieces, ∃ inner, emitNested emitter piece = .done inner := by
  induction pieces with
  | nil => exact ⟨done, by simp⟩
  | cons piece pieces ih =>
    rw [emitPieces, foldr_cons] at done
    cases first : emitNested emitter piece with
    | done inner =>
      rw [first] at done
      obtain ⟨same, later⟩ := ih done
      exact ⟨same, forall_mem_cons.mpr ⟨⟨inner, first⟩, later⟩⟩
    | exit => simp [first, Outcome.andThen] at done
    | overrun => simp [first, Outcome.andThen] at done

/-- Where each string that is not rejected is emitted, so are all of them. -/
lemma emitPieces_accepted {P : List Char → List Call → Prop} (accepted : emitPieces emitter pieces next ≠ .exit)
    (each : ∀ piece ∈ pieces, emitNested emitter piece ≠ .exit →
      ∃ inner, emitNested emitter piece = .done inner ∧ P piece inner) :
    emitPieces emitter pieces next = next ∧
      ∀ piece ∈ pieces, ∃ inner, emitNested emitter piece = .done inner ∧ P piece inner := by
  induction pieces with
  | nil => exact ⟨rfl, by simp⟩
  | cons piece pieces ih =>
    obtain ⟨here, later⟩ := forall_mem_cons.mp each
    rw [emitPieces, foldr_cons] at accepted ⊢
    obtain ⟨inner, first, emitted⟩ := here fun exits => accepted (by rw [exits]; rfl)
    rw [first] at accepted ⊢
    obtain ⟨same, rest⟩ := ih accepted later
    exact ⟨same, forall_mem_cons.mpr ⟨⟨inner, first, emitted⟩, rest⟩⟩

end

lemma after_done {res : Outcome} (done : res.after call = .done calls) :
    ∃ more, calls = call :: more ∧ res = .done more := by
  cases res with
  | done more => exact ⟨more, (Outcome.done.inj done).symm, rfl⟩
  | exit => cases done
  | overrun => cases done

lemma done_append (other : call ≠ .plain deschedule) (fits : call.Fits rest)
    (done : emitNested emitter (call.text ++ rest) = .done calls) :
    ∃ more, calls = call :: more ∧ emitNested emitter rest = .done more := by
  rw [emitNested_append other fits] at done
  cases handed : emitter.pieces call with
  | none => simp [handed] at done
  | some pieces =>
    rw [handed, Option.elim_some] at done
    exact after_done (emitPieces_done done).1

lemma done_deschedule (done : emitNested emitter ((Call.plain deschedule).text ++ rest) = .done calls) :
    ∃ more, calls = .plain deschedule :: more ∧ rest ≠ [] ∧ emitNested emitter (rest.drop 1) = .done more := by
  rw [emitNested_deschedule] at done
  split at done
  · cases done
  · rename_i some
    obtain ⟨more, same, last⟩ := after_done done
    exact ⟨more, same, some, last⟩

/-- The calls account for no more than the string. -/
lemma text_le {code : List Char} {calls : List Call} (done : emitNested emitter code = .done calls) :
    (calls.flatMap Call.text).length ≤ code.length := by
  match code with
  | [] =>
    rw [emitNested] at done
    cases done
    exact Nat.le_refl _
  | c :: s =>
    have accepted : emitNested emitter (c :: s) ≠ .exit := by simp [done]
    obtain ⟨call, rest, split, fits⟩ := emitNested_cons accepted
    have lt : rest.length < (c :: s).length := split ▸ rest_lt call rest
    rw [split] at done ⊢
    by_cases same : call = .plain deschedule
    · subst same
      obtain ⟨more, rfl, -, last⟩ := done_deschedule done
      have le := text_le last
      rw [length_drop] at le
      rw [flatMap_cons, length_append, length_append]
      omega
    · obtain ⟨more, rfl, last⟩ := done_append same fits done
      have le := text_le last
      rw [flatMap_cons, length_append, length_append]
      omega
termination_by code.length
decreasing_by
  · exact (drop_sublist 1 rest).length_le.trans_lt lt
  · exact lt

/-! ### What is emitted and what is read -/

lemma Reads.text_length (reads : Reads emitter code calls) : (calls.flatMap Call.text).length = code.length := by
  induction reads with
  | nil => rfl
  | cons _ _ _ _ _ _ _ ih => simpa using ih

lemma Reads.uncons (reads : Reads emitter (call.text ++ rest) (call :: calls)) : Reads emitter rest calls ∧
    ∀ pieces, emitter.pieces call = some pieces →
      ∀ piece ∈ pieces, ∃ inner, emitNested emitter piece = .done inner ∧ Reads emitter piece inner := by
  generalize whole : call.text ++ rest = code at reads
  cases reads with
  | cons inner fits handed done reads later =>
    obtain rfl := append_cancel_left whole
    refine ⟨later, fun pieces same piece mem => ?_⟩
    obtain rfl := Option.some.inj (handed.symm.trans same)
    exact ⟨inner piece, done piece mem, reads piece mem⟩

/-- After `%deschedule` a character is lost; the calls of a string that is emitted otherwise are those it is made of. -/
lemma Deschedules.not_reads (deschedules : Deschedules emitter code) :
    ¬ ∃ calls, emitNested emitter code = .done calls ∧ Reads emitter code calls := by
  induction deschedules with
  | here rest =>
    rintro ⟨calls, done, reads⟩
    obtain ⟨more, rfl, some, last⟩ := done_deschedule done
    have short := text_le last
    have whole := reads.uncons.1.text_length
    have pos := length_pos_iff.mpr some
    rw [length_drop] at short
    omega
  | inside fits handed mem _ ih =>
    rintro ⟨calls, done, reads⟩
    rename_i call rest piece pieces inner
    have other : call ≠ .plain deschedule := by
      rintro rfl
      cases handed
      cases mem
    obtain ⟨more, rfl, -⟩ := done_append other fits done
    exact ih (reads.uncons.2 pieces handed piece mem)
  | later other fits _ ih =>
    rintro ⟨calls, done, reads⟩
    obtain ⟨more, rfl, last⟩ := done_append other fits done
    exact ih ⟨more, last, reads.uncons.1⟩

/-- Unless it deschedules, a string that is not rejected is emitted as it reads. -/
lemma reads_of_not_deschedules {code : List Char} (accepted : emitNested emitter code ≠ .exit)
    (not : ¬ Deschedules emitter code) : ∃ calls, emitNested emitter code = .done calls ∧ Reads emitter code calls := by
  match code with
  | [] => exact ⟨[], by rw [emitNested], .nil⟩
  | c :: s =>
    obtain ⟨call, rest, split, fits⟩ := emitNested_cons accepted
    have lt : rest.length < (c :: s).length := split ▸ rest_lt call rest
    rw [split] at accepted not ⊢
    have other : call ≠ .plain deschedule := by
      rintro rfl
      exact not (.here rest)
    rw [emitNested_append other fits] at accepted ⊢
    cases handed : emitter.pieces call with
    | none => simp [handed] at accepted
    | some pieces =>
      rw [handed] at accepted
      rw [Option.elim_some] at accepted ⊢
      obtain ⟨same, emitted⟩ := emitPieces_accepted (P := Reads emitter) accepted fun piece mem accepted =>
        have shorter : piece.length < (c :: s).length := split ▸ emitter.piece_lt handed mem rest
        reads_of_not_deschedules accepted fun deschedules => not (.inside fits handed mem deschedules)
      rw [same] at accepted ⊢
      have inner : emitNested emitter rest ≠ .exit := fun exits => accepted (by rw [exits]; rfl)
      obtain ⟨calls, done, reads⟩ := reads_of_not_deschedules inner fun more => not (.later other fits more)
      choose! inner done' reads' using emitted
      exact ⟨call :: calls, by rw [done]; rfl, .cons inner fits handed done' reads' reads⟩
termination_by code.length
decreasing_by
  · exact shorter
  · exact lt

/-- A string that is accepted is emitted as it reads, exactly if none of its directives is `%deschedule`, at any
depth of the arguments. -/
theorem emitted_iff (accepted : emitNested emitter code ≠ .exit) :
    (∃ calls, emitNested emitter code = .done calls ∧ Reads emitter code calls) ↔ ¬ Deschedules emitter code :=
  ⟨fun emitted deschedules => deschedules.not_reads emitted, reads_of_not_deschedules accepted⟩

theorem yield_not_deschedules : ¬ Deschedules functionCodeEmitter "%yield".toList := by
  have fits : (Call.plain yield).Fits [] := rfl
  have emitted : emitNested functionCodeEmitter "%yield".toList = .done [.plain yield] := by
    refine (emitNested_append (by decide) fits).trans ?_
    rw [emitNested]
    rfl
  have reads : Reads functionCodeEmitter "%yield".toList [.plain yield] :=
    .cons (fun _ => []) fits rfl (by simp) (by simp) .nil
  exact (emitted_iff (by rw [emitted]; decide)).mp ⟨_, emitted, reads⟩

/-- The newline of the string is lost. -/
theorem deschedule_not_emitted : emitNested functionCodeEmitter "%deschedule\n".toList = .done [.plain deschedule] ∧
    Deschedules functionCodeEmitter "%deschedule\n".toList ∧
      ¬ ∃ calls, emitNested functionCodeEmitter "%deschedule\n".toList = .done calls ∧
        Reads functionCodeEmitter "%deschedule\n".toList calls := by
  have emitted : emitNested functionCodeEmitter "%deschedule\n".toList = .done [.plain deschedule] := by
    refine (emitNested_deschedule ['\n']).trans ?_
    rw [if_neg (by decide), drop_one, tail_cons, emitNested]
    rfl
  have deschedules : Deschedules functionCodeEmitter "%deschedule\n".toList := .here ['\n']
  exact ⟨emitted, deschedules, deschedules.not_reads⟩

-- In the arguments of another directive it is the nested call that runs past the end.
example : emitNested functionCodeEmitter "%kcall(%deschedule)".toList = .overrun := by
  have fits : (Call.bracket kCall "%deschedule".toList).Fits [] := ⟨rfl, by decide⟩
  have inner : emitNested functionCodeEmitter "%deschedule".toList = .overrun := emitNested_deschedule []
  refine (emitNested_append (by decide) fits).trans ?_
  show (emitNested functionCodeEmitter "%deschedule".toList).andThen _ = _
  rw [inner]
  rfl

end Axe.CodeEmitter
