import Mathlib.Order.Lattice

/-! Agents with clocks of their own, under a loop that takes the earliest entry of
its queue. An agent runs on until it rests, so its clock gets ahead of the queue;
what it does to others it does at its own time. The waits of exposed agents are
safe as long as nothing that may still happen happens before they began. -/

@[ext]
structure AgentClocks (Agent Other Time : Type*) where
  clock : Agent → Time
  /-- Where an agent stands in the queue. -/
  place : Agent → Option Time
  waiting : Agent → Bool
  /-- The wait of the agent can be ended at a time that has nothing to do with its clock. -/
  exposed : Agent → Prop
  /-- When the agent began the operation it is in. -/
  issued : Agent → Time
  /-- Where the things without a clock stand in the queue. -/
  others : Other → Option Time
  running : Option Agent
  now : Option Time
  /-- The running agent has begun an operation. -/
  busy : Prop
  /-- It began it when nothing in the queue was due before. -/
  guarded : Prop

namespace AgentClocks

variable {Agent Other Time : Type*} [LinearOrder Time]

structure Bounds (clk : AgentClocks Agent Other Time) (time : Time) : Prop where
  place : ∀ a w, clk.place a = some w → time ≤ w
  others : ∀ o w, clk.others o = some w → time ≤ w
  now : ∀ n, clk.now = some n → time ≤ n

lemma Bounds.mono {clk : AgentClocks Agent Other Time} {time prior : Time} (bds : clk.Bounds time)
    (le : prior ≤ time) : clk.Bounds prior :=
  ⟨fun a w place => le.trans (bds.place a w place), fun o w place => le.trans (bds.others o w place),
    fun n now => le.trans (bds.now n now)⟩

structure Timely (clk : AgentClocks Agent Other Time) : Prop where
  places : ∀ a w, clk.place a = some w → w ≤ clk.clock a
  own : ∀ a, clk.running ≠ some a → clk.waiting a = true → clk.issued a ≤ clk.clock a
  floor : ∀ a, clk.running ≠ some a → clk.waiting a = true → clk.exposed a →
    clk.Bounds (clk.issued a)
  current : ∀ a, clk.running = some a → clk.now = some (clk.clock a)
  busy : clk.busy → ∀ a, clk.running = some a → clk.issued a ≤ clk.clock a
  guarded : clk.guarded → ∀ a, clk.running = some a → clk.Bounds (clk.issued a)

/-- What may be done to an agent that is not running, by something that gives the time `due`. -/
structure Affects (due : Time) (pre post : AgentClocks Agent Other Time) (a : Agent) : Prop where
  place : ∀ w, post.place a = some w → (w = due ∨ pre.place a = some w) ∧ w ≤ post.clock a
  waiting : post.waiting a = true →
    pre.waiting a = true ∧ post.issued a ≤ pre.issued a ∧ post.issued a ≤ post.clock a
  woken : pre.waiting a = true → post.waiting a = false →
    due ≤ post.clock a ∧ pre.issued a ≤ post.clock a
  exposed : post.exposed a → pre.exposed a

structure Advances (due : Time) (pre post : AgentClocks Agent Other Time) (a : Agent) : Prop where
  clock : pre.clock a ≤ post.clock a
  now : post.now = some (post.clock a)
  issued : post.issued a ≤ pre.issued a
  place : ∀ w, post.place a = some w → (w = due ∨ pre.place a = some w) ∧ w ≤ post.clock a

structure Work (due : Time) (pre post : AgentClocks Agent Other Time) : Prop where
  running : post.running = pre.running
  busy : post.busy → pre.busy
  guarded : post.guarded → pre.guarded
  now : ∀ n, pre.now = some n → ∀ later, post.now = some later → n ≤ later
  others : ∀ o w, post.others o = some w → pre.others o = some w ∨ ∀ n, pre.now = some n → n ≤ w
  agent : ∀ a, pre.running ≠ some a → Affects due pre post a
  current : ∀ a, pre.running = some a → Advances due pre post a

variable {pre post : AgentClocks Agent Other Time} {due n : Time}

lemma Work.bounds (work : Work due pre post) (run : pre.now = some n) (timely : n ≤ due) {time : Time}
    (bds : pre.Bounds time) : post.Bounds time := by
  have reach : time ≤ n := bds.now n run
  constructor
  · intro a w place
    have put : w = due ∨ pre.place a = some w := by
      by_cases exec : pre.running = some a
      · exact ((work.current a exec).place w place).1
      · exact ((work.agent a exec).place w place).1
    obtain rfl | put := put
    · exact reach.trans timely
    · exact bds.place a w put
  · intro o w place
    obtain put | later := work.others o w place
    · exact bds.others o w put
    · exact reach.trans (later n run)
  · intro later now
    exact reach.trans (work.now n run later now)

lemma Timely.work (timely : pre.Timely) (work : Work due pre post) (run : pre.now = some n)
    (notBefore : n ≤ due) : post.Timely := by
  constructor
  · intro a w place
    by_cases exec : pre.running = some a
    · exact ((work.current a exec).place w place).2
    · exact ((work.agent a exec).place w place).2
  · intro a rests wait
    rw [work.running] at rests
    exact ((work.agent a rests).waiting wait).2.2
  · intro a rests wait seen
    rw [work.running] at rests
    obtain ⟨slept, prior, -⟩ := (work.agent a rests).waiting wait
    have bds := timely.floor a rests slept ((work.agent a rests).exposed seen)
    exact (work.bounds run notBefore bds).mono prior
  · intro a exec
    rw [work.running] at exec
    exact (work.current a exec).now
  · intro busy a exec
    rw [work.running] at exec
    have advances := work.current a exec
    exact (advances.issued.trans (timely.busy (work.busy busy) a exec)).trans advances.clock
  · intro guarded a exec
    rw [work.running] at exec
    have bds := timely.guarded (work.guarded guarded) a exec
    exact (work.bounds run notBefore bds).mono (work.current a exec).issued

section

variable (clk : AgentClocks Agent Other Time)

def run [DecidableEq Other] (o : Other) (time : Time) : AgentClocks Agent Other Time :=
  { clk with
    others := Function.update clk.others o none
    running := none
    now := some time
    busy := False
    guarded := False }

def rest : AgentClocks Agent Other Time :=
  { clk with running := none, now := none, busy := False, guarded := False }

variable {clk}

lemma Timely.run [DecidableEq Other] (timely : clk.Timely) (idle : clk.running = none) {o : Other} {w : Time}
    (place : clk.others o = some w) : (clk.run o w).Timely := by
  have rests (b : Agent) : clk.running ≠ some b := by simp [idle]
  constructor
  · exact timely.places
  · intro b _ wait
    exact timely.own b (rests b) wait
  · intro b _ wait seen
    have bds := timely.floor b (rests b) wait seen
    refine ⟨bds.place, fun p v put => ?_, fun n now => ?_⟩
    · by_cases same : p = o
      · simp [AgentClocks.run, same] at put
      · exact bds.others p v (by simpa [AgentClocks.run, same] using put)
    · obtain rfl : w = n := by simpa [AgentClocks.run] using now
      exact bds.others o w place
  · intro b exec
    simp [AgentClocks.run] at exec
  · exact fun busy => busy.elim
  · exact fun guarded => guarded.elim

lemma Timely.rest (timely : clk.Timely) (left : ∀ a, clk.running = some a → clk.waiting a = false) :
    clk.rest.Timely := by
  have rests (b : Agent) (wait : clk.waiting b = true) : clk.running ≠ some b := by
    intro exec
    simp [left b exec] at wait
  constructor
  · exact timely.places
  · intro b _ wait
    exact timely.own b (rests b wait) wait
  · intro b _ wait seen
    have bds := timely.floor b (rests b wait) wait seen
    exact ⟨bds.place, bds.others, fun n now => by simp [AgentClocks.rest] at now⟩
  · intro b exec
    simp [AgentClocks.rest] at exec
  · exact fun busy => busy.elim
  · exact fun guarded => guarded.elim

variable [DecidableEq Agent] (clk)

def dispatch (a : Agent) : AgentClocks Agent Other Time :=
  { clk with
    place := Function.update clk.place a none
    running := some a
    now := some (clk.clock a)
    busy := False
    guarded := False }

def issue (a : Agent) (guarded : Prop) : AgentClocks Agent Other Time :=
  { clk with
    issued := Function.update clk.issued a (clk.clock a)
    busy := True
    guarded := guarded }

def yield (a : Agent) : AgentClocks Agent Other Time :=
  { clk.rest with
    place := Function.update clk.place a (some (clk.clock a))
    waiting := Function.update clk.waiting a false }

def pause (a : Agent) (time : Time) : AgentClocks Agent Other Time :=
  { clk.rest with
    clock := Function.update clk.clock a time
    waiting := Function.update clk.waiting a true }

def start (a : Agent) : AgentClocks Agent Other Time :=
  { clk with
    place := Function.update clk.place a (some (clk.clock a))
    waiting := Function.update clk.waiting a false
    guarded := False }

variable {clk}

section

variable (timely : clk.Timely)
include timely

variable {a : Agent}

lemma Timely.dispatch (idle : clk.running = none) {w : Time}
    (place : clk.place a = some w) : (clk.dispatch a).Timely := by
  have due : w ≤ clk.clock a := timely.places a w place
  have rests (b : Agent) : clk.running ≠ some b := by simp [idle]
  constructor
  · intro b v put
    by_cases same : b = a
    · simp [AgentClocks.dispatch, same] at put
    · exact timely.places b v (by simpa [AgentClocks.dispatch, same] using put)
  · intro b _ wait
    exact timely.own b (rests b) wait
  · intro b _ wait seen
    have bds := timely.floor b (rests b) wait seen
    refine ⟨fun c v put => ?_, bds.others, fun n now => ?_⟩
    · by_cases same : c = a
      · simp [AgentClocks.dispatch, same] at put
      · exact bds.place c v (by simpa [AgentClocks.dispatch, same] using put)
    · obtain rfl : clk.clock a = n := by simpa [AgentClocks.dispatch] using now
      exact (bds.place a w place).trans due
  · intro b exec
    obtain rfl : a = b := by simpa [AgentClocks.dispatch] using exec
    rfl
  · exact fun busy => busy.elim
  · exact fun guarded => guarded.elim

lemma Timely.issue (run : clk.running = some a) {guarded : Prop}
    (ahead : guarded → clk.Bounds (clk.clock a)) : (clk.issue a guarded).Timely := by
  have other (b : Agent) (rests : clk.running ≠ some b) : b ≠ a := by
    rintro rfl
    exact rests run
  constructor
  · exact timely.places
  · intro b rests wait
    simpa [AgentClocks.issue, other b rests] using timely.own b rests wait
  · intro b rests wait seen
    have bds := timely.floor b rests wait seen
    have same : (clk.issue a guarded).issued b = clk.issued b := by
      simp [AgentClocks.issue, other b rests]
    rw [same]
    exact ⟨bds.place, bds.others, bds.now⟩
  · exact timely.current
  · intro _ b exec
    obtain rfl : a = b := Option.some.inj (run.symm.trans exec)
    simp [AgentClocks.issue]
  · intro first b exec
    obtain rfl : a = b := Option.some.inj (run.symm.trans exec)
    have bds := ahead first
    have now : (clk.issue a guarded).issued a = clk.clock a := by simp [AgentClocks.issue]
    rw [now]
    exact ⟨bds.place, bds.others, bds.now⟩

/-- An agent may enter the queue at a time by which every exposed wait had begun. -/
lemma Timely.start (calm : ∀ b, clk.running ≠ some b → clk.waiting b = true → clk.exposed b →
      clk.issued b ≤ clk.clock a) : (clk.start a).Timely := by
  have slept (b : Agent) (wait : (clk.start a).waiting b = true) : clk.waiting b = true := by
    by_cases same : b = a
    · simp [AgentClocks.start, same] at wait
    · simpa [AgentClocks.start, same] using wait
  constructor
  · intro b w put
    by_cases same : b = a
    · obtain rfl : clk.clock a = w := by simpa [AgentClocks.start, same] using put
      exact (same ▸ le_refl _ : clk.clock a ≤ clk.clock b)
    · exact timely.places b w (by simpa [AgentClocks.start, same] using put)
  · intro b rests wait
    exact timely.own b rests (slept b wait)
  · intro b rests wait seen
    have bds := timely.floor b rests (slept b wait) seen
    refine ⟨fun c w put => ?_, bds.others, bds.now⟩
    by_cases same : c = a
    · obtain rfl : clk.clock a = w := by simpa [AgentClocks.start, same] using put
      exact calm b rests (slept b wait) seen
    · exact bds.place c w (by simpa [AgentClocks.start, same] using put)
  · exact timely.current
  · exact timely.busy
  · exact fun guarded => guarded.elim

lemma Timely.yield (run : clk.running = some a) : (clk.yield a).Timely := by
  have now := timely.current a run
  have calm : ∀ b, clk.running ≠ some b → clk.waiting b = true → clk.exposed b →
      clk.issued b ≤ clk.clock a :=
    fun b rests wait seen => (timely.floor b rests wait seen).now _ now
  -- giving up is entering the queue and leaving the processor
  refine (timely.start calm).rest fun b exec => ?_
  obtain rfl : a = b := by simpa [AgentClocks.start, run] using exec
  simp [AgentClocks.start]

/-- An exposed agent may wait if nothing can happen before it began to. -/
lemma Timely.pause (run : clk.running = some a) (busy : clk.busy)
    (safe : clk.exposed a → clk.Bounds (clk.issued a)) {time : Time} (later : clk.clock a ≤ time) :
    (clk.pause a time).Timely := by
  have kept {x : Time} (bds : clk.Bounds x) : (clk.pause a time).Bounds x :=
    ⟨bds.place, bds.others, fun n now => by simp [AgentClocks.pause, AgentClocks.rest] at now⟩
  constructor
  · intro b w put
    by_cases same : b = a
    · subst same
      have due := timely.places b w put
      simpa [AgentClocks.pause] using due.trans later
    · simpa [AgentClocks.pause, same] using timely.places b w put
  · intro b _ wait
    by_cases same : b = a
    · subst same
      simpa [AgentClocks.pause, AgentClocks.rest] using (timely.busy busy b run).trans later
    · have rests : clk.running ≠ some b := by simpa [run] using Ne.symm same
      have slept : clk.waiting b = true := by simpa [AgentClocks.pause, same] using wait
      simpa [AgentClocks.pause, AgentClocks.rest, same] using timely.own b rests slept
  · intro b _ wait seen
    by_cases same : b = a
    · subst same
      exact kept (safe seen)
    · have rests : clk.running ≠ some b := by simpa [run] using Ne.symm same
      have slept : clk.waiting b = true := by simpa [AgentClocks.pause, same] using wait
      exact kept (timely.floor b rests slept seen)
  · intro b exec
    simp [AgentClocks.pause, AgentClocks.rest] at exec
  · exact fun busy => busy.elim
  · exact fun guarded => guarded.elim

end

end

end AgentClocks
