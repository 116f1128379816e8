import Axe.Channel.InputWaits

/-! One thread inputs on a channel end while others output to it. The thread sleeps on
exactly when a control token comes for one that waits for a word and finds at most two
tokens there. -/

namespace Axe

open PacketNetwork (Message)

structure InputRun where
  sys : System
  /-- What the thread executed last on the channel end. -/
  last : ChanOp

namespace InputRun

open Axe.System

section

variable (via : Routing) (t d : Nat)

def step (run : InputRun) (call : ChanCall) : InputRun where
  sys := run.sys.execute via call
  last := if call.chanend = d then call.op else run.last

/-- Threads that do not wait execute; on `d` only `t` does, and only to input. -/
def Admissible (run : InputRun) (call : ChanCall) : Prop :=
  (run.sys.threads call.thread).waiting = false ∧
    (call.chanend = d → call.thread = t ∧ (isInput call.op = true ∨ call.op = .alloc))

def Paused (run : InputRun) : Prop :=
  (run.sys.threads t).waiting = true ∧ (run.sys.threads t).pausedOn = some (.chanend d)

def PausesAgain (run : InputRun) : Prop :=
  run.Paused t d → (run.sys.attempt via ⟨t, d, run.last⟩).2 = .deschedule

/-- A control token comes to `d` while `t` waits for a word and at most two tokens are there. -/
def LosesControl (run : InputRun) (call : ChanCall) : Prop :=
  run.Paused t d ∧ waitsForWord run.last = true ∧ (run.sys.chanends d).buf.length ≤ 2 ∧
    (run.sys.chanends call.chanend).inUse = true ∧
    PacketNetwork.Reaches run.sys.network call.chanend (run.sys.target via call.chanend) d ∧
    ∃ value, call.op = .outct value ∧ value ≠ ctPause

structure Inv (run : InputRun) : Prop where
  valid : run.sys.Valid
  disabled : run.sys.Disabled
  sound : run.sys.WaitsSound
  pending : run.sys.pendingEvent = none
  noted : run.Paused t d → (run.sys.chanends d).inUse = true ∧ isInput run.last = true ∧
    (run.sys.chanends d).inputSide = (some t, waitsForWord run.last)

end

variable {via : Routing} {t d : Nat} {run : InputRun} {call : ChanCall}

lemma paused_iff : run.Paused t d ↔ run.sys.table.waitsFor t = some (.chanend d) := by
  simp only [Paused, table, Thread.waitsFor]
  cases (run.sys.threads t).waiting <;> simp

variable (via) in
lemma Inv.executed (inv : run.Inv t d) (legal : run.Admissible t d call) : run.sys.Executed via call :=
  execute_executed via inv.sound inv.pending inv.disabled.undisturbed call legal.1

lemma paused_elsewhere (inv : run.Inv t d) (legal : run.Admissible t d call) (apart : d ≠ call.chanend)
    (held : (run.step via d call).Paused t d) : t ≠ call.thread ∧ run.Paused t d := by
  have ran := inv.executed via legal
  have still : (run.sys.execute via call).table.waitsFor t = some (.chanend d) := paused_iff.mp held
  have other : t ≠ call.thread := by
    rintro rfl
    rw [ran.own] at still
    split at still
    · simp [Ne.symm apart] at still
    · simp at still
  refine ⟨other, paused_iff.mpr ?_⟩
  rcases ran.others t other with woken | same
  · simp [woken] at still
  · exact same ▸ still

lemma kept_elsewhere (inv : run.Inv t d) (legal : run.Admissible t d call) (apart : d ≠ call.chanend)
    (held : (run.step via d call).Paused t d) :
    ((run.sys.execute via call).chanends d).inputSide = (run.sys.chanends d).inputSide := by
  have ran := inv.executed via legal
  have pre := (paused_elsewhere inv legal apart held).2
  obtain ⟨-, -, noted⟩ := inv.noted pre
  have recorded : t ∈ run.sys.table.recorded (.chanIn d) := by
    simp only [Chanend.inputSide, Prod.mk.injEq] at noted
    simp [table, noted.1]
  have still : (run.sys.execute via call).table.waitsFor t = some (.chanend d) := paused_iff.mp held
  rcases ran.kept (.chanIn d) t (by simp [WaitSlot.resource, apart]) recorded with stays | woken
  · have side := execute_inputSide via d inv.disabled call apart
    unfold Chanend.afterArrival at side
    split at side
    · exact side
    · have none : ((run.sys.execute via call).chanends d).pausedIn = none := congrArg Prod.fst side
      simp [table, none] at stays
  · simp [woken] at still

lemma inUse_kept {sys : System} {call : ChanCall} {c : Nat} (inUse : (sys.chanends c).inUse = true)
    (unreleased : ¬ (call.chanend = c ∧ call.op = .free)) : ((sys.execute via call).chanends c).inUse = true := by
  have upd := sys.execute_settings c via call
  generalize same : ((sys.execute via call).chanends c).settings = settings at upd
  simp only [Chanend.settings] at same
  cases upd <;> grind [Chanend.settings]

/-- The thread pauses here by an input that had to wait, and it is noted as it should be. -/
structure OwnPause (via : Routing) (t d : Nat) (run : InputRun) (call : ChanCall) : Prop where
  inUse : ((run.sys.execute via call).chanends d).inUse = true
  input : isInput call.op = true
  noted : ((run.sys.execute via call).chanends d).inputSide = (some t, waitsForWord call.op)
  waits : MustWait call.op ((run.sys.execute via call).chanends d).buf

lemma own_pause (inv : run.Inv t d) (legal : run.Admissible t d call) (here : call.chanend = d)
    (held : (run.step via d call).Paused t d) : OwnPause via t d run call := by
  obtain ⟨u, c, op⟩ := call
  obtain rfl : c = d := here
  obtain ⟨rfl, may⟩ := legal.2 rfl
  have ran := inv.executed via legal
  have stops : (run.sys.attempt via ⟨u, c, op⟩).2 = .deschedule := by
    have own := (paused_iff.mp held).symm.trans ran.own
    by_contra goes
    simp [goes] at own
  obtain ⟨inUse, notAlloc⟩ := run.sys.attempt_inUse via stops
  have input : isInput op = true := may.resolve_right notAlloc
  obtain ⟨waits, noted⟩ := run.sys.attempt_waits via u c op input inUse
  have unsent : op.message = none := by cases op <;> first | rfl | simp [isInput] at input
  have partly : ∀ value, (run.sys.attempt via ⟨u, c, op⟩).2 ≠ .continued value := by simp [stops]
  have buf : ((run.sys.execute via ⟨u, c, op⟩).chanends c).buf = _ :=
    incomplete_input unsent partly c
  constructor
  · apply inUse_kept inUse
    rintro ⟨-, rfl⟩
    simp [isInput] at input
  · exact input
  · rw [execute, finish_chanends]
    exact noted stops
  · rw [buf]
    exact waits.mp stops

lemma Inv.step (inv : run.Inv t d) (legal : run.Admissible t d call) : (run.step via d call).Inv t d := by
  have ran := inv.executed via legal
  refine ⟨inv.valid.execute call, inv.disabled.execute call, ran.sound, ran.pending, ?_⟩
  intro held
  by_cases here : call.chanend = d
  · have own := own_pause inv legal here held
    simp only [InputRun.step, here, if_true]
    exact ⟨own.inUse, own.input, own.noted⟩
  · have pre := (paused_elsewhere inv legal (Ne.symm here) held).2
    obtain ⟨inUse, input, noted⟩ := inv.noted pre
    simp only [InputRun.step, here, if_false]
    refine ⟨inUse_kept inUse fun same => here same.1, input, ?_⟩
    rw [kept_elsewhere inv legal (Ne.symm here) held, noted]

lemma controlPosition_zero {buf : List Token} (short : buf.length < 4) :
    controlPosition buf = 0 ↔ ¬ ∃ token ∈ buf, token.control = true := by
  have absent : controlPosition buf = 0 ↔ buf.findIdx? (·.control) = none := by
    rw [controlPosition, List.take_of_length_le (by omega)]
    cases buf.findIdx? (·.control) <;> simp
  rw [absent, List.findIdx?_eq_none_iff]
  simp

section

variable (inv : run.Inv t d)
include inv

lemma buf_elsewhere (apart : d ≠ call.chanend) : ((run.sys.execute via call).chanends d).buf =
      (run.sys.chanends d).buf ++ run.sys.deliveredTo via d call := by
  have stream := execute_stream via inv.valid call d
  have nil : run.sys.consumedFrom via d call = [] := by
    unfold consumedFrom
    split
    · rw [if_neg (Ne.symm apart)]
    · rfl
  rwa [nil, List.nil_append] at stream

lemma holds_iff (held : run.Paused t d) : run.PausesAgain via t d ↔ MustWait run.last (run.sys.chanends d).buf := by
  obtain ⟨inUse, input, -⟩ := inv.noted held
  rw [← (run.sys.attempt_waits via t d run.last input inUse).1]
  exact ⟨fun again => again held, fun again _ => again⟩

section

variable (legal : run.Admissible t d call)
include legal

lemma LosesControl.paused (apart : d ≠ call.chanend)
    (loses : run.LosesControl via t d call) : (run.step via d call).Paused t d := by
  obtain ⟨held, word, short, inUse, hits, value, op, notPause⟩ := loses
  have ran := inv.executed via legal
  obtain ⟨-, -, noted⟩ := inv.noted held
  have side := execute_inputSide via d inv.disabled call apart
  have tokens : (run.sys.deliveredTo via d call).length ≤ 1 := by
    unfold deliveredTo
    rw [op, ChanOp.message]
    split
    · rename_i message _ same _
      obtain rfl := Option.some.inj same
      split <;> simp [ctrlMessage, notPause]
    · simp
  have stays : ((run.sys.execute via call).chanends d).pausedIn = some t := by
    simp only [Chanend.inputSide, Prod.mk.injEq] at noted
    have unchanged : (run.sys.chanends d).afterArrival (run.sys.deliveredTo via d call) =
        (run.sys.chanends d).inputSide := by
      rw [Chanend.afterArrival, if_pos]
      refine .inr ⟨noted.2.trans word, ?_⟩
      rw [List.length_append]
      omega
    exact (congrArg Prod.fst (side.trans unchanged)).trans noted.1
  apply paused_iff.mpr
  exact ran.sound.waits (.chanIn d) t (by simp [table, stays])

lemma waits_elsewhere (apart : d ≠ call.chanend)
    (held : (run.step via d call).Paused t d) (holds : run.PausesAgain via t d) :
    MustWait run.last ((run.sys.execute via call).chanends d).buf ↔ ¬ run.LosesControl via t d call := by
  have pre := (paused_elsewhere inv legal apart held).2
  obtain ⟨inUse, input, noted⟩ := inv.noted pre
  have waits := (holds_iff inv pre).mp holds
  have side := (execute_inputSide via d inv.disabled call apart).symm.trans (kept_elsewhere inv legal apart held)
  have word : (run.sys.chanends d).waitForWord = waitsForWord run.last := congrArg Prod.snd noted
  have sleeps : run.sys.deliveredTo via d call = [] ∨ (waitsForWord run.last = true ∧
      ((run.sys.chanends d).buf ++ run.sys.deliveredTo via d call).length < 4) := by
    by_contra wakes
    rw [Chanend.afterArrival, word, if_neg wakes, noted] at side
    simp at side
  rw [buf_elsewhere inv apart]
  unfold MustWait at waits ⊢
  cases isWord : waitsForWord run.last with
  | false =>
    have nil : run.sys.deliveredTo via d call = [] := by simpa [isWord] using sleeps
    simp only [isWord, Bool.false_eq_true, if_false] at waits ⊢
    refine iff_of_true (by rw [waits, nil]; rfl) ?_
    rintro ⟨-, word, -⟩
    simp [isWord] at word
  | true =>
    simp only [isWord, if_true] at waits ⊢
    have short : ((run.sys.chanends d).buf ++ run.sys.deliveredTo via d call).length < 4 := by
      rcases sleeps with nil | short
      · rw [nil, List.append_nil]
        exact waits.2
      · exact short.2
    have control : (∃ token ∈ (run.sys.chanends d).buf ++ run.sys.deliveredTo via d call,
        token.control = true) ↔ ∃ token ∈ run.sys.deliveredTo via d call, token.control = true := by
      have data := (controlPosition_zero waits.2).mp waits.1
      simp only [not_exists, not_and] at data
      grind
    rw [controlPosition_zero short, and_iff_left short, control, not_iff_not]
    constructor
    · rintro ⟨token, mem, isControl⟩
      obtain ⟨act, hits, -, op⟩ :=
        (run.sys.delivered_control via inv.valid d call).mp ⟨token, mem, isControl⟩
      have one := List.length_pos_of_mem mem
      rw [List.length_append] at short
      exact ⟨pre, isWord, by omega, act, hits, op⟩
    · rintro ⟨-, -, few, act, hits, op⟩
      apply (run.sys.delivered_control via inv.valid d call).mpr
      refine ⟨act, hits, ?_, op⟩
      unfold chanendBufferSize
      omega

lemma step_pausesAgain_iff (holds : run.PausesAgain via t d) :
    (run.step via d call).PausesAgain via t d ↔ ¬ run.LosesControl via t d call := by
  have after : (run.step via d call).Inv t d := inv.step legal
  by_cases here : call.chanend = d
  · -- The thread is not asleep when it executes, and what it waits for then is not there.
    refine iff_of_true (fun held => ?_) ?_
    · have own := own_pause inv legal here held
      apply (holds_iff after held).mpr ?_ held
      simpa [InputRun.step, here] using own.waits
    · rintro ⟨held, -⟩
      have runs := legal.1
      rw [(legal.2 here).1] at runs
      simp [held.1] at runs
  · have apart := Ne.symm here
    by_cases held : (run.step via d call).Paused t d
    · rw [holds_iff after held, ← waits_elsewhere inv legal apart held holds]
      simp [InputRun.step, here]
    · exact iff_of_true (fun sleeps => absurd sleeps held) fun loses => held (loses.paused inv legal apart)

end

end

structure Initial (t : Nat) (run : InputRun) : Prop where
  unallocated : run.sys.Unallocated
  unrecorded : ∀ slot, run.sys.table.recorded slot = []
  pending : run.sys.pendingEvent = none
  awake : (run.sys.threads t).waiting = false

lemma Initial.inv (init : run.Initial t) : run.Inv t d where
  valid := init.unallocated.valid
  disabled c := by rw [init.unallocated c]
  sound := by constructor <;> simp [init.unrecorded]
  pending := init.pending
  noted paused := absurd paused.1 (by simp [init.awake])

theorem pausesAgain_iff (run : InputRun) (init : run.Initial t) (calls : List ChanCall)
    (legal : Runs.Meets (step via d) (Admissible t d) run calls) : (∀ passed, passed <+: calls →
      (passed.foldl (step via d) run).PausesAgain via t d) ↔
    Runs.Meets (step via d) (fun run call => ¬ run.LosesControl via t d call) run calls :=
  Runs.always_iff_meets (fun _ _ inv legal _ => Inv.step inv legal)
    (fun _ _ inv legal holds => step_pausesAgain_iff inv legal holds)
    run calls legal init.inv fun paused => absurd paused.1 (by simp [init.awake])

/-- Thread 1 waits for a word on channel end 1, and thread 0 sends to it from channel end 0. -/
def wordWait (token : ChanOp) : List ChanCall :=
  [⟨0, 0, .alloc⟩, ⟨1, 1, .alloc⟩, ⟨0, 0, .setd 0x102⟩, ⟨1, 1, .inWord⟩, ⟨0, 0, token⟩]

def atStart : InputRun := ⟨.initial, .alloc⟩

theorem pausesAgain_data : ((wordWait (.outt 7)).foldl (step routeByNumber 1) atStart).Paused 1 1 ∧
      ((wordWait (.outt 7)).foldl (step routeByNumber 1) atStart).PausesAgain routeByNumber 1 1 := by
  have init : atStart.Initial 1 := ⟨fun _ => rfl, fun slot => by cases slot <;> rfl, rfl, rfl⟩
  refine ⟨⟨rfl, rfl⟩, (pausesAgain_iff atStart init (wordWait (.outt 7)) ?_).mpr ?_ _ List.prefix_rfl⟩
  · refine ⟨⟨rfl, by simp⟩, ⟨rfl, fun _ => ⟨rfl, .inr rfl⟩⟩, ⟨rfl, by simp⟩, ⟨rfl, fun _ => ⟨rfl, .inl rfl⟩⟩,
      ⟨rfl, by simp⟩, trivial⟩
  · refine ⟨?_, ?_, ?_, ?_, ?_, trivial⟩ <;> rintro ⟨-, -, -, -, -, value, op, -⟩ <;> cases op

/-- The first control token of a packet does not wake the thread, although its `in` would trap. -/
theorem lost_control_token :
    ¬ ((wordWait (.outct 5)).foldl (step routeByNumber 1) atStart).PausesAgain routeByNumber 1 1 := by
  intro again
  exact absurd (again ⟨rfl, rfl⟩) (by decide)

end InputRun

end Axe
