import Axe.System.ClockSteps

/-! Runs of the loop: every thread that is woken goes on after it issued the
instruction it was paused in, as long as no thread that ran ahead of its time slice is
paused. -/

namespace Axe

namespace ClockRun

lemma sound_initial (begun : Nat → Bool) : (initial begun).Sound := by
  have th (u : Nat) : ((initial begun).sys.threads u).waiting = false ∧
      ∀ w, ((initial begun).sys.threads u).wakeUpTime = some w → w = 0 := by
    cases runs : begun u with
    | false => simp [initial, runs]
    | true =>
      refine ⟨by simp [initial, runs], fun w place => ?_⟩
      have zero : some 0 = some w := by simpa [initial, runs] using place
      exact (Option.some.inj zero).symm
  refine ⟨⟨fun u w place => ?_, fun u _ wait => ?_, fun u _ wait => ?_, ?_, ?_, ?_⟩, fun running => ?_⟩
  · rw [(th u).2 w place]
    exact Nat.zero_le _
  · exact absurd wait (by simp [clocks, th u])
  · exact absurd wait (by simp [clocks, th u])
  · simp [clocks, initial, Running.executing]
  · simp [clocks, initial, Running.executing]
  · simp [clocks, initial, Running.executing]
  · exact absurd rfl running

/-- In a run whose steps are all careful, every thread that a resource wakes goes on neither before the time of
the resource nor before the issue of its own instruction. -/
theorem wakes_not_before_issue (via : System.Routing) (started : Nat → Bool) (steps : List ClockStep)
    (may : Runs.Meets (fun run => act run via) Allowed (initial started) steps)
    (safe : Runs.Meets (fun run => act run via) (fun run => Careful run via) (initial started) steps) :
    Runs.Meets (fun run => act run via) (fun run => WakesRight run via) (initial started) steps := by
  have sound := sound_initial started
  generalize initial started = run at sound may safe ⊢
  induction steps generalizing run with
  | nil => trivial
  | cons label steps ih =>
    obtain ⟨kept, right⟩ := sound.act label may.1 safe.1
    exact ⟨right, ih _ kept may.2 safe.2⟩

section

def stage (threads : List Thread) (chanends : List Chanend) (cur : Nat) (running : Running)
    (issued : List Nat) : ClockRun where
  sys := { System.initial with
    threads := fun u => threads.getD u {}
    chanends := fun c => chanends.getD c {}
    currentRunnable := some cur }
  ports _ := none
  peripherals _ := none
  running := running
  issued u := issued.getD u 0

variable {running : Running} {inst : ClockedInstruction}

lemma eq_stage {run : ClockRun} {threads : List Thread} {chanends : List Chanend} {cur : Nat} {issued : List Nat}
    (sameThreads : ∀ u, run.sys.threads u = threads.getD u {})
    (sameChanends : ∀ c, run.sys.chanends c = chanends.getD c {}) (sameIssued : ∀ u, run.issued u = issued.getD u 0)
    (sameRest : { run with
      sys := { run.sys with threads := System.initial.threads, chanends := System.initial.chanends }
      issued := fun _ => 0 } = stage [] [] cur running []) :
    run = stage threads chanends cur running issued := by
  obtain ⟨⟨_, _, _, _, _, _, _, _⟩, _, _, _, _⟩ := run
  simp only [stage, ClockRun.mk.injEq, System.mk.injEq] at sameRest ⊢
  refine ⟨⟨funext sameThreads, sameRest.1.2.1, funext sameChanends, ?_⟩, sameRest.2.1, sameRest.2.2.1,
    sameRest.2.2.2.1, funext sameIssued⟩
  exact sameRest.1.2.2.2

lemma queued_stage {threads : List Thread} {chanends : List Chanend} {cur : Nat} {issued : List Nat} {time : Nat}
    (inQ : (stage threads chanends cur running issued).Queued time) :
    ∃ th ∈ threads, th.wakeUpTime = some time := by
  obtain ⟨u, place⟩ | ⟨r, place⟩ := inQ
  · have place : (threads.getD u {}).wakeUpTime = some time := place
    rw [List.getD_eq_getElem?_getD] at place
    cases found : threads[u]? with
    | none => simp [found] at place
    | some th => exact ⟨th, List.mem_of_getElem? found, by simpa [found] using place⟩
  · cases r <;> cases place

lemma not_expired_stage {threads : List Thread} {chanends : List Chanend} {cur : Nat} {issued : List Nat}
    {t : Nat} (later : ∀ th ∈ threads, ∀ w ∈ th.wakeUpTime, (threads.getD t {}).time ≤ w) :
    ¬(stage threads chanends cur running issued).Expired t := by
  rintro ⟨time, inQ, earlier⟩
  obtain ⟨th, mem, place⟩ := queued_stage inQ
  exact Nat.not_lt_of_le (later th mem time place) earlier

def chanendOf (owner : Nat) : Chanend := { inUse := true, events := { owner := some owner }, junkIncoming := false }

def toFirst : System.Routing := fun _ _ => some 0

def runnable (pc time : Nat) : Thread := { inUse := true, pc := pc, time := time }

def enqueued (pc time : Nat) : Thread := { runnable pc time with wakeUpTime := some time }

def paused (pc time : Nat) : Thread := { runnable pc time with waiting := true, pausedOn := some (.chanend 0) }

def awaited : Chanend := { chanendOf 0 with pausedIn := some 0 }

def aimed : Chanend := { chanendOf 1 with destID := 2 }

/-- Two threads get a channel end each. The one that waits for a token does so when the other cannot be before it. -/
def tokenInTurn : List (ClockStep × ClockRun) :=
  [(.dispatch 0, stage [runnable 0 0, enqueued 0 0] [] 0 (.thread 0 .fetch) []),
    (.issue .getr, stage [runnable 0 0, enqueued 0 0] [] 0 (.thread 0 (.execute .getr)) []),
    (.operate (.channel 0 .alloc), stage [runnable 0 0, enqueued 0 0] [chanendOf 0] 0 (.thread 0 (.execute .getr)) []),
    (.finish 4, stage [runnable 1 4, enqueued 0 0] [chanendOf 0] 0 (.thread 0 .fetch) []),
    (.yield, stage [enqueued 1 4, enqueued 0 0] [chanendOf 0] 0 .idle []),
    (.dispatch 1, stage [enqueued 1 4, runnable 0 0] [chanendOf 0] 1 (.thread 1 .fetch) []),
    (.issue .getr, stage [enqueued 1 4, runnable 0 0] [chanendOf 0] 1 (.thread 1 (.execute .getr)) []),
    (.operate (.channel 1 .alloc),
      stage [enqueued 1 4, runnable 0 0] [chanendOf 0, chanendOf 1] 1 (.thread 1 (.execute .getr)) []),
    (.finish 4, stage [enqueued 1 4, runnable 1 4] [chanendOf 0, chanendOf 1] 1 (.thread 1 .fetch) []),
    (.issue (.resource .setd_2r),
      stage [enqueued 1 4, runnable 1 4] [chanendOf 0, chanendOf 1] 1 (.thread 1 (.execute (.resource .setd_2r)))
        [0, 4]),
    (.operate (.channel 1 (.setd 2)),
      stage [enqueued 1 4, runnable 1 4] [chanendOf 0, aimed] 1 (.thread 1 (.execute (.resource .setd_2r))) [0, 4]),
    (.finish 4, stage [enqueued 1 4, runnable 2 8] [chanendOf 0, aimed] 1 (.thread 1 .fetch) [0, 4]),
    (.yield, stage [enqueued 1 4, enqueued 2 8] [chanendOf 0, aimed] 1 .idle [0, 4]),
    (.dispatch 0, stage [runnable 1 4, enqueued 2 8] [chanendOf 0, aimed] 0 (.thread 0 .fetch) [0, 4]),
    (.issue (.resource .int_2r),
      stage [runnable 1 4, enqueued 2 8] [chanendOf 0, aimed] 0 (.thread 0 (.execute (.resource .int_2r))) [4, 4]),
    (.operate (.channel 0 .intoken), stage [runnable 1 4, enqueued 2 8] [awaited, aimed] 0
        (.thread 0 (.descheduled (.resource .int_2r) (some (.chanend 0)))) [4, 4]),
    (.pause 4, stage [paused 1 8, enqueued 2 8] [awaited, aimed] 0 .idle [4, 4]),
    (.dispatch 1, stage [paused 1 8, runnable 2 8] [awaited, aimed] 1 (.thread 1 .fetch) [4, 4]),
    (.issue (.resource .outt_2r),
      stage [paused 1 8, runnable 2 8] [awaited, aimed] 1 (.thread 1 (.execute (.resource .outt_2r))) [4, 8]),
    (.operate (.channel 1 (.outt 7)), stage [enqueued 1 8, runnable 2 8]
        [{ chanendOf 0 with source := some 1, buf := [⟨7, false⟩] }, { aimed with dest := some 0, inPacket := true }]
        1 (.thread 1 (.execute (.resource .outt_2r))) [4, 8])]

/-- A thread gets a channel end, divides and waits for a token; the other then gets a channel end to send one. -/
def receiverAhead : List (ClockStep × ClockRun) :=
  [(.dispatch 0, stage [runnable 0 0, enqueued 0 0] [] 0 (.thread 0 .fetch) []),
    (.issue .getr, stage [runnable 0 0, enqueued 0 0] [] 0 (.thread 0 (.execute .getr)) []),
    (.operate (.channel 0 .alloc), stage [runnable 0 0, enqueued 0 0] [chanendOf 0] 0 (.thread 0 (.execute .getr)) []),
    (.finish 4, stage [runnable 1 4, enqueued 0 0] [chanendOf 0] 0 (.thread 0 .fetch) []),
    (.issue (.resource .other),
      stage [runnable 1 4, enqueued 0 0] [chanendOf 0] 0 (.thread 0 (.execute (.resource .other))) [4]),
    (.finish 128, stage [runnable 2 132, enqueued 0 0] [chanendOf 0] 0 (.thread 0 .fetch) [4]),
    (.issue (.resource .int_2r),
      stage [runnable 2 132, enqueued 0 0] [chanendOf 0] 0 (.thread 0 (.execute (.resource .int_2r))) [132]),
    (.operate (.channel 0 .intoken), stage [runnable 2 132, enqueued 0 0] [awaited] 0
        (.thread 0 (.descheduled (.resource .int_2r) (some (.chanend 0)))) [132]),
    (.pause 4, stage [paused 2 136, enqueued 0 0] [awaited] 0 .idle [132]),
    (.dispatch 1, stage [paused 2 136, runnable 0 0] [awaited] 1 (.thread 1 .fetch) [132]),
    (.issue .getr, stage [paused 2 136, runnable 0 0] [awaited] 1 (.thread 1 (.execute .getr)) [132]),
    (.operate (.channel 1 .alloc),
      stage [paused 2 136, runnable 0 0] [awaited, chanendOf 1] 1 (.thread 1 (.execute .getr)) [132]),
    (.finish 4, stage [paused 2 136, runnable 1 4] [awaited, chanendOf 1] 1 (.thread 1 .fetch) [132]),
    (.issue (.resource .setd_2r),
      stage [paused 2 136, runnable 1 4] [awaited, chanendOf 1] 1 (.thread 1 (.execute (.resource .setd_2r))) [132, 4]),
    (.operate (.channel 1 (.setd 2)),
      stage [paused 2 136, runnable 1 4] [awaited, aimed] 1 (.thread 1 (.execute (.resource .setd_2r))) [132, 4]),
    (.finish 4, stage [paused 2 136, runnable 2 8] [awaited, aimed] 1 (.thread 1 .fetch) [132, 4]),
    (.issue (.resource .outt_2r),
      stage [paused 2 136, runnable 2 8] [awaited, aimed] 1 (.thread 1 (.execute (.resource .outt_2r))) [132, 8])]

variable {threads : List Thread} {chanends : List Chanend} {cur t : Nat} {issued : List Nat}

lemma allowed_dispatch {w : Nat} (place : (threads.getD t {}).wakeUpTime = some w)
    (least : ∀ th ∈ threads, ∀ v ∈ th.wakeUpTime, w ≤ v) :
    (stage threads chanends cur .idle issued).Allowed (.dispatch t) := by
  intro v isPlace time inQ
  obtain rfl : w = v := Option.some.inj (place.symm.trans isPlace)
  obtain ⟨th, mem, place⟩ := queued_stage inQ
  exact least th mem time place

lemma allowed_issue
    (later : inst.yieldsBefore = true → ∀ th ∈ threads, ∀ w ∈ th.wakeUpTime, (threads.getD t {}).time ≤ w) :
    (stage threads chanends cur (.thread t .fetch) issued).Allowed (.issue inst) := by
  rintro _ _ ⟨⟩ yields
  exact not_expired_stage (later yields)

lemma allowed_operate {op : Operation} (does : inst ∈ op.instructions) :
    (stage threads chanends cur (.thread t (.execute inst)) issued).Allowed (.operate op) := by
  rintro _ _ ⟨⟩
  exact does

lemma careful_channel {c : Nat} {op : ChanOp} (quiet : ∀ ch ∈ chanends, ch.events.eventsEnabled = false) :
    (stage threads chanends cur (.thread t (.execute inst)) issued).Careful toFirst (.operate (.channel c op)) := by
  rintro _ _ ⟨⟩
  refine ⟨fun _ d _ u legal => ?_, nofun⟩
  have disabled : (chanends.getD d {}).events.eventsEnabled = false := by
    rw [List.getD_eq_getElem?_getD]
    cases found : chanends[d]? with
    | none => rfl
    | some ch => exact quiet ch (List.mem_of_getElem? found)
  have never (sys : System) (evs : Eventable) (off : evs.eventsEnabled = false) :
      sys.eventsPermitted evs = false := by
    unfold System.eventsPermitted
    split <;> simp [off]
  unfold System.permits at legal
  rw [never _ _ (by exact disabled)] at legal
  cases legal

lemma tokenInTurn_traced : Runs.Traced (fun run => act run toFirst)
    (fun run label => run.Allowed label ∧ run.Careful toFirst label) (initial fun u => decide (u < 2)) tokenInTurn := by
  have start {time w : Nat} (place : some 0 = some w) : w ≤ time := by
    cases place
    exact Nat.zero_le _
  unfold tokenInTurn
  refine ⟨⟨fun w place time _ => start place, trivial⟩, ?_, ⟨nofun, trivial⟩, ?_,
    ⟨allowed_operate (by decide), careful_channel (by decide)⟩, ?_, ⟨trivial, trivial⟩, ?_, ⟨?_, trivial⟩, ?_,
    ⟨allowed_dispatch rfl (by decide), trivial⟩, ?_, ⟨nofun, trivial⟩, ?_,
    ⟨allowed_operate (by decide), careful_channel (by decide)⟩, ?_, ⟨trivial, trivial⟩, ?_,
    ⟨allowed_issue (by decide), trivial⟩, ?_, ⟨allowed_operate (by decide), careful_channel (by decide)⟩, ?_,
    ⟨trivial, trivial⟩, ?_, ⟨?_, trivial⟩, ?_, ⟨allowed_dispatch rfl (by decide), trivial⟩, ?_, ⟨nofun, trivial⟩, ?_,
    ⟨allowed_operate (by decide), careful_channel (by decide)⟩, ?_, ⟨?_, ?_⟩, ?_,
    ⟨allowed_dispatch rfl (by decide), trivial⟩, ?_, ⟨allowed_issue (by decide), trivial⟩, ?_,
    ⟨allowed_operate (by decide), careful_channel (by decide)⟩, ?_, trivial⟩
  all_goals first
    | exact eq_stage (fun | 0 => rfl | 1 => rfl | _ + 2 => rfl) (fun | 0 => rfl | 1 => rfl | _ + 2 => rfl)
        (fun | 0 => rfl | 1 => rfl | _ + 2 => rfl) rfl
    | skip
  · rintro _ _ ⟨⟩
    exact ⟨0, .inl ⟨1, rfl⟩, by decide⟩
  · rintro _ _ ⟨⟩
    exact ⟨4, .inl ⟨0, rfl⟩, by decide⟩
  · rintro _ _ _ ⟨⟩
    nofun
  · rintro _ _ _ ⟨⟩ _ _
    exact not_expired_stage (by decide)

/-- A token that is waited for in turn: the receiver issued its input at time 4 and goes on at time 8. -/
theorem tokenInTurn_wakes_right :
    Runs.Meets (fun run => act run toFirst) (fun run => WakesRight run toFirst) (initial fun u => decide (u < 2))
      (tokenInTurn.map Prod.fst) :=
  wakes_not_before_issue toFirst (fun u => decide (u < 2)) (tokenInTurn.map Prod.fst)
    (tokenInTurn_traced.meets.mono fun _ _ => And.left) (tokenInTurn_traced.meets.mono fun _ _ => And.right)

lemma receiverAhead_traced : Runs.Traced (fun run => act run toFirst) Allowed
    (initial fun u => decide (u < 2)) receiverAhead := by
  have start {time w : Nat} (place : some 0 = some w) : w ≤ time := by
    cases place
    exact Nat.zero_le _
  unfold receiverAhead
  refine ⟨fun w place time _ => start place, ?_, nofun, ?_, allowed_operate (by decide), ?_, trivial, ?_, nofun, ?_,
    trivial, ?_, nofun, ?_, allowed_operate (by decide), ?_, ?_, ?_, allowed_dispatch rfl (by decide), ?_, nofun, ?_,
    allowed_operate (by decide), ?_, trivial, ?_, allowed_issue (by decide), ?_, allowed_operate (by decide), ?_,
    trivial, ?_, allowed_issue (by decide), ?_, trivial⟩
  all_goals first
    | exact eq_stage (fun | 0 => rfl | 1 => rfl | _ + 2 => rfl) (fun | 0 => rfl | 1 => rfl | _ + 2 => rfl)
        (fun | 0 => rfl | 1 => rfl | _ + 2 => rfl) rfl
    | skip
  rintro _ _ _ ⟨⟩
  nofun

/-- The receiver issues its input at time 132 and goes on at time 8. -/
theorem receiver_set_back : let steps := receiverAhead.map Prod.fst ++ [.operate (.channel 1 (.outt 7))]
    Runs.Meets (fun run => act run toFirst) Allowed (initial fun u => decide (u < 2)) steps ∧
      ¬Runs.Meets (fun run => act run toFirst) (fun run => WakesRight run toFirst)
        (initial fun u => decide (u < 2)) steps := by
  intro steps
  have reach := receiverAhead_traced.reaches
  constructor
  · refine (Runs.meets_append _ _ _).mpr ⟨receiverAhead_traced.meets, ?_⟩
    rw [reach]
    exact ⟨allowed_operate (by decide), trivial⟩
  · intro right
    obtain ⟨-, last, -⟩ := (Runs.meets_append _ _ _).mp right
    rw [reach] at last
    have wrong : 132 ≤ 8 := (last 8 rfl 0 rfl rfl).2
    omega

end

end ClockRun

end Axe
