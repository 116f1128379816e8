import Axe.Core.CodeRuns

/-! Issue modes. The operands of relative branches, calls and addresses are scaled by the issue
width of the thread that decoded them, and fragments are compiled for single issue; the entries
of a decode cache are for all threads of the core. -/

namespace Axe

open List

def entryModes (mode : Bool) : List (List Bool) → List Bool
  | [] => []
  | fragment :: rest => mode :: entryModes (fragment.getLastD mode) rest

namespace CodeStep

/-- What a thread executes fits its issue mode: an instruction is what decoding gives now in that mode,
and compiled code is entered in single issue. `BREAKPOINT` has no operands. -/
def Right (st : CodeState) : CodeStep → Prop
  | .dispatch t pc _ exec =>
    let th := st.threads t
    match st.cell th.inRam pc with
    | .decode _ => True
    | .instruction _ entry =>
      entry.opcode = .breakpoint ∨ ∀ pre,
        let now := instructionTransform (st.cacheSize th.inRam) pc th.dualIssue
          ((st.encoding th.inRam pc).run pre)
        entry.opcode = now.opcode ∧ entry.decoded.used = now.used
    | .function _ => ∀ mode ∈ th.dualIssue :: entryModes th.dualIssue exec.modes, mode = false
  | _ => True

/-- The pcs are divided between the issue modes, `dual` being those for dual issue: a relative
instruction is decoded and executed in the mode of its pc only, and so is a pc for which a fragment
is compiled, which is none for dual issue; compiled code does not switch to dual issue. -/
def Divided (dual : Bool → Nat → Bool) (st : CodeState) : CodeStep → Prop
  | .dispatch t pc pre exec =>
    let th := st.threads t
    (match st.cell th.inRam pc with
      | .decode _ => th.dualIssue = dual th.inRam pc ∨
          ((st.instructionDecode th.inRam pc).run pre).opcode.relative = false
      | .instruction _ entry => th.dualIssue = dual th.inRam pc ∨ entry.raw.opcode.relative = false
      | .function _ => th.dualIssue = dual th.inRam pc ∧
          ∀ fragment ∈ exec.modes, ∀ left ∈ fragment, left = false) ∧
      ∀ q, exec.Compiles q → dual true q = false
  | .interpretOne _ _ _ _ exec => ∀ q, exec.Compiles q → dual true q = false
  | .decodeElsewhere pc assign dualIssue pre =>
    dualIssue = dual false pc ∨ (assign.run pre).opcode.relative = false
  | _ => True

end CodeStep

def OpcodeCell.FitsMode (dual : Bool) : OpcodeCell Entry → Prop
  | .decode _ => True
  | .instruction _ entry => entry.dualIssue = dual ∨ entry.raw.opcode.relative = false
  | .function _ => dual = false

namespace CodeState

variable {dual : Bool → Nat → Bool} {st : CodeState}

def FitsModes (dual : Bool → Nat → Bool) (st : CodeState) : Prop :=
  ∀ inRam pc, (st.cell inRam pc).FitsMode (dual inRam pc)

variable {lbl : CodeStep} {pc : Nat} {tracing left : Bool} {entry : Entry}

lemma FitsModes.origin (fits : st.FitsModes dual) (div : lbl.Divided dual st) {inRam : Bool}
    {cell : OpcodeCell Entry} (origin : lbl.Origin st inRam pc cell) : cell.FitsMode (dual inRam pc) := by
  rcases origin with rfl | ⟨operands, rfl⟩ | ⟨tracing, entry, rfl, decodes⟩ | ⟨rfl, compiles, function, rfl⟩
  · exact fits inRam pc
  · have pre := fits inRam pc
    cases there : st.cell inRam pc with
    | decode => trivial
    | instruction tracing entry =>
      rw [there] at pre
      exact pre
    | function =>
      rw [there] at pre
      exact pre
  · cases lbl with
    | dispatch t here pre exec =>
      obtain ⟨rfl, rfl, dead, rfl⟩ := decodes
      have div := div.1
      cases there : st.cell (st.threads t).inRam pc with
      | decode tracing' =>
        rw [there] at div
        exact div
      | instruction => rw [there] at dead; cases dead
      | function => rw [there] at dead; cases dead
    | decodeElsewhere here assign dualIssue pre =>
      obtain ⟨rfl, rfl, rfl⟩ := decodes
      exact div
    | _ => exact absurd decodes id
  · cases lbl with
    | dispatch t here pre exec => exact div.2 pc compiles
    | interpretOne t here pre raised exec => exact div pc compiles
    | _ => exact absurd compiles id

lemma FitsModes.step (fits : st.FitsModes dual) {post : CodeState} (div : lbl.Divided dual st)
    (origins : ∀ inRam pc, (post.cell inRam pc).live = true → lbl.Origin st inRam pc (post.cell inRam pc)) :
    post.FitsModes dual := by
  intro inRam pc
  cases live : (post.cell inRam pc).live with
  | true => exact fits.origin div (origins inRam pc live)
  | false =>
    cases there : post.cell inRam pc with
    | decode => trivial
    | instruction => rw [there] at live; cases live
    | function => rw [there] at live; cases live

lemma entryModes_single {fragments : List (List Bool)} {mode : Bool} (one : mode = false)
    (lefts : ∀ frag ∈ fragments, ∀ left ∈ frag, left = false) :
    ∀ into ∈ entryModes mode fragments, into = false := by
  induction fragments generalizing mode with
  | nil => exact fun _ mem => absurd mem not_mem_nil
  | cons frag rest ih =>
    intro into mem
    rcases mem_cons.mp mem with rfl | later
    · exact one
    · refine ih ?_ (fun other isIn => lefts other (mem_cons_of_mem _ isIn)) into later
      rw [getLastD_eq_getLast?]
      cases last : frag.getLast? with
      | none => exact one
      | some left => exact lefts frag mem_cons_self left (mem_of_getLast? last)

lemma Inv.right (inv : st.Inv) (fits : st.FitsModes dual)
    (div : lbl.Divided dual st) : lbl.Right st := by
  cases lbl with
  | dispatch t pc pre exec =>
    have fitting := fits (st.threads t).inRam pc
    have div := div.1
    simp only [CodeStep.Right]
    cases cell : st.cell (st.threads t).inRam pc with
    | decode => trivial
    | instruction tracing entry =>
      rw [cell] at div fitting
      refine (inv.holds cell).2.imp_right fun made now => made.now ?_ now
      rcases div with mode | abs
      · rw [mode]
        exact fitting
      · exact .inr abs
    | function compiled =>
      rw [cell] at div fitting
      have one : (st.threads t).dualIssue = false := div.1.trans fitting
      intro mode mem
      rcases mem_cons.mp mem with rfl | chained
      · exact one
      · exact entryModes_single one div.2 mode chained
  | _ => trivial

def DividedGuard (dual : Bool → Nat → Bool) (st : Option CodeState) (lbl : CodeStep) : Prop :=
  lbl.Guard st ∧ ∀ now ∈ st, lbl.Divided dual now

lemma fitsModes_step (st : Option CodeState) (lbl : CodeStep)
    (reach : ∃ now, st = some now ∧ now.Inv ∧ now.FitsModes dual) (guard : DividedGuard dual st lbl) :
    ∃ post, step st lbl = some post ∧ post.Inv ∧ post.FitsModes dual := by
  obtain ⟨now, rfl, inv, fits⟩ := reach
  obtain ⟨legal, safe⟩ := guard.1 now rfl
  obtain ⟨post, acted, invAfter, origins⟩ := lbl.done inv legal safe
  exact ⟨post, acted, invAfter, fits.step (guard.2 now rfl) origins⟩

/-- In every run that decodes known encodings, invalidates the code it writes and keeps to a division
of the code between the issue modes, every thread executes what fits its mode. -/
theorem issueModes_runs (dual : Bool → Nat → Bool) (initial : st.Initial) (steps : List CodeStep)
    (meets : Runs.Meets step (DividedGuard dual) (some st) steps) : ∃ now, steps.foldl step (some st) = some now ∧
      ∀ next : CodeStep, next.Admissible now → next.Careful now → next.Divided dual now → next.Right now := by
  have fits : st.FitsModes dual := by
    intro inRam pc
    obtain ⟨tracing, empty⟩ := initial.ram
    cases inRam with
    | true =>
      rw [cell, if_pos rfl, empty]
      trivial
    | false =>
      have dead : (st.cell false pc).live = false := initial.rom pc
      cases there : st.cell false pc with
      | decode => trivial
      | instruction => rw [there] at dead; cases dead
      | function => rw [there] at dead; cases dead
  obtain ⟨now, reach, inv, fitsNow⟩ :=
    meets.invariant fitsModes_step ⟨st, rfl, initial.inv, fits⟩
  exact ⟨now, reach, fun next _ _ divided => inv.right fitsNow divided⟩

def quiet (left : Bool) : CodeExecution := ⟨[], [[left]], true, none⟩

lemma quiet_admissible {t : Nat} (cell : st.cell (st.threads t).inRam pc = .instruction tracing entry)
    (isIn : st.Inside (st.threads t).inRam pc)
    (leaves : entry.opcode.mayLeave (st.threads t).dualIssue left = true) (pre : Decoded) :
    (CodeStep.dispatch t pc pre (quiet left)).Admissible st := by
  simp only [CodeStep.Admissible, cell]
  refine ⟨isIn, ⟨trivial, fun _ eff mem => absurd mem not_mem_nil, fun _ _ chosen => ?_⟩,
    fun eff mem => absurd mem not_mem_nil, left, rfl, leaves⟩
  cases chosen

lemma quiet_careful {t : Nat} (cell : st.cell (st.threads t).inRam pc = .instruction tracing entry)
    (pre : Decoded) (left : Bool) : (CodeStep.dispatch t pc pre (quiet left)).Careful st := by
  simp only [CodeStep.Careful, cell]
  trivial

def callAt (pc : Nat) (left : Bool) : CodeStep := .dispatch 0 pc unset (quiet left)

def after (steps : List CodeStep) : CodeState := (steps.foldl step (some freshCode)).getD freshCode

lemma after_eq (steps : List CodeStep) {now : CodeState} (reach : now ∈ steps.foldl step (some freshCode)) :
    now = after steps := by
  rw [after, Option.mem_def.mp reach, Option.getD_some]

lemma decodes_at (steps : List CodeStep)
    (cell : (after steps).cell ((after steps).threads 0).inRam pc = .decode false)
    (isIn : (after steps).Inside ((after steps).threads 0).inRam pc)
    (known : ((after steps).instructionDecode ((after steps).threads 0).inRam pc).isSome = true) :
    (callAt pc left).Guard (steps.foldl step (some freshCode)) := by
  intro now reach
  obtain rfl := after_eq steps reach
  exact decode_guard cell isIn known _ _

lemma executes_at (steps : List CodeStep)
    (cell : (after steps).cell ((after steps).threads 0).inRam pc = .instruction false entry)
    (isIn : (after steps).Inside ((after steps).threads 0).inRam pc)
    (leaves : entry.opcode.mayLeave ((after steps).threads 0).dualIssue left = true) :
    (callAt pc left).Guard (steps.foldl step (some freshCode)) := by
  intro now reach
  obtain rfl := after_eq steps reach
  exact ⟨quiet_admissible cell isIn leaves _, quiet_careful cell _ _⟩

/-- `bu 1` in single issue, `dualentsp`, and `bu -2` in dual issue, which leads back to the first one. -/
def loop : List CodeStep := [callAt 0 false, callAt 0 false, callAt 2 true, callAt 2 true, callAt 3 true, callAt 3 true]

lemma loop_guard : Runs.Meets step (fun st lbl => lbl.Guard st) (some freshCode) loop := by
  refine ⟨?_, ?_, ?_, ?_, ?_, ?_, trivial⟩
  · exact decodes_at [] rfl (by decide +kernel) (by decide +kernel)
  · exact executes_at [callAt 0 false] rfl (by decide +kernel) (by decide +kernel)
  · exact decodes_at [callAt 0 false, callAt 0 false] rfl (by decide +kernel) (by decide +kernel)
  · exact executes_at [callAt 0 false, callAt 0 false, callAt 2 true] rfl (by decide +kernel) (by decide +kernel)
  · exact decodes_at [callAt 0 false, callAt 0 false, callAt 2 true, callAt 2 true] rfl
      (by decide +kernel) (by decide +kernel)
  · exact executes_at [callAt 0 false, callAt 0 false, callAt 2 true, callAt 2 true, callAt 3 true] rfl
      (by decide +kernel) (by decide +kernel)

/-- The second time the first branch is executed in dual issue, with the target of single issue. -/
theorem loop_wrong : freshCode.Initial ∧ Runs.Meets step (fun st lbl => lbl.Guard st) (some freshCode) loop ∧
      (callAt 0 true).Guard (loop.foldl step (some freshCode)) ∧
      ∃ now, loop.foldl step (some freshCode) = some now ∧ ¬(callAt 0 true).Right now := by
  refine ⟨freshCode_initial, loop_guard, executes_at loop rfl (by decide +kernel) (by decide +kernel), _, rfl, ?_⟩
  rintro (breakpoint | same)
  · exact absurd breakpoint (by decide +kernel)
  · have used := (same unset).2
    revert used
    decide +kernel

lemma divided_at (dual : Bool → Nat → Bool) (steps : List CodeStep)
    (mode : ((after steps).threads 0).dualIssue = dual ((after steps).threads 0).inRam pc)
    (interpreted : ((after steps).cell ((after steps).threads 0).inRam pc).isFunction = false) :
    ∀ now ∈ steps.foldl step (some freshCode), (callAt pc left).Divided dual now := by
  intro now reach
  obtain rfl := after_eq steps reach
  refine ⟨?_, fun q ⟨_, _, chosen, _⟩ => nomatch chosen⟩
  cases cell : (after steps).cell ((after steps).threads 0).inRam pc with
  | decode => exact .inl mode
  | instruction => exact .inl mode
  | function => rw [cell] at interpreted; cases interpreted

/-- The same code without the way back, where every pc has its mode. -/
theorem freshCode_right : let dual := fun _ pc => pc == 3
    let steps := [callAt 2 true, callAt 2 true, callAt 3 true]
    Runs.Meets step (DividedGuard dual) (some freshCode) steps ∧
      ∃ now, steps.foldl step (some freshCode) = some now ∧ (callAt 3 true).Right now := by
  intro dual steps
  have meets : Runs.Meets step (DividedGuard dual) (some freshCode) steps := by
    refine ⟨⟨?_, divided_at dual [] rfl rfl⟩, ⟨?_, divided_at dual [callAt 2 true] rfl rfl⟩,
      ⟨?_, divided_at dual [callAt 2 true, callAt 2 true] rfl rfl⟩, trivial⟩
    · exact decodes_at [] rfl (by decide +kernel) (by decide +kernel)
    · exact executes_at [callAt 2 true] rfl (by decide +kernel) (by decide +kernel)
    · exact decodes_at [callAt 2 true, callAt 2 true] rfl (by decide +kernel) (by decide +kernel)
  obtain ⟨now, reach, right⟩ := issueModes_runs dual freshCode_initial steps meets
  have good : (callAt 3 true).Guard (steps.foldl step (some freshCode)) :=
    executes_at steps rfl (by decide +kernel) (by decide +kernel)
  obtain ⟨admissible, safe⟩ := good now reach
  exact ⟨meets, now, reach, right _ admissible safe (divided_at dual steps rfl rfl now reach)⟩

end CodeState

end Axe
