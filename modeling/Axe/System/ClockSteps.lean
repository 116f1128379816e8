import Axe.System.ClockOrder

/-! The steps of the loop: each keeps the clocks in order, and whom it wakes goes on
after the instruction it was paused in was issued. -/

namespace Axe

namespace ClockRun

open Axe.System (ClockEffects SameClocks)

variable {run : ClockRun} {via : System.Routing}

lemma continues_operate (t : Nat) (inst : ClockedInstruction) (res : OperationResult) :
    (Running.thread t (.execute inst)).Continues (.thread t (Phase.afterOperation inst res)) := by
  apply Running.Continues.thread
  · exact fun _ => rfl
  · cases res <;> exact id

variable {t : Nat} {inst : ClockedInstruction}

lemma Sound.executes (sound : run.Sound) {phase : Phase} (runs : run.running = .thread t phase) :
    run.running.executing = some t ∧ run.sys.currentRunnable = some t := by
  have exec : run.running.executing = some t := by rw [runs]; rfl
  exact ⟨exec, (sound.current (by simp [runs])).trans exec⟩

lemma act_operate (runs : run.running = .thread t (.execute inst))
    (op : Operation) : run.act via (.operate op) = { run with
        sys := (run.sys.operate via t op).1
        running := .thread t (Phase.afterOperation inst (run.sys.operate via t op).2)
        issued := fun u => if allocates run.sys op = some u then 0 else run.issued u } := by
  simp only [act, runs]

lemma Sound.effects_only (sound : run.Sound) {sys : System} {runs : Running} {due now : Nat}
    (eff : ClockEffects due run.sys sys) (isNow : run.now = some now) (later : now ≤ due)
    (goes : run.running.Continues runs) : { run with sys := sys, running := runs : ClockRun }.Sound := by
  refine sound.effects { run with sys := sys, running := runs } eff isNow later goes (fun o w place => ?_) rfl
  cases o with
  | timer n => exact (eff.timer n w place).imp_right later.trans
  | port | peripheral => exact .inl place

lemma Sound.tstart (sound : run.Sound) {u : Nat} (runs : run.running = .thread t (.execute .tstart))
    (calm : run.Settled (run.sys.threads u).time) : (run.act via (.operate (.tstart u))).Sound := by
  have cur := sound.current (by simp [runs])
  by_cases ready : ((run.sys.threads u).inUse && (run.sys.threads u).ssync && (run.sys.threads u).sync.isNone) = true
  · have started : (run.act via (.operate (.tstart u))).clocks = run.clocks.start u := by
      let change (th : Thread) : Thread :=
        { th with
          ssync := false, pc := th.pc + 1, waiting := false, pausedOn := none, wakeUpTime := some th.time }
      have once : (run.sys.updateThread u fun th => { th with ssync := false, pc := th.pc + 1 }).schedule u =
          run.sys.updateThread u change := by
        simp [change, System.schedule, System.updateThread]
      simp only [act_operate runs, System.operate, ready, if_true, Phase.afterOperation, allocates, once,
        reduceCtorEq, if_false]
      refine (clocks_updateThread run u change run.sys.currentRunnable (.thread t (.execute .tstart)) (fun _ => rfl)
        fun _ => rfl).trans ?_
      have time : ((run.sys.updateThread u change).threads t).time = (run.sys.threads t).time := by
        by_cases same : t = u <;> simp [change, System.updateThread, same]
      simp [change, AgentClocks.start, clocks, now, runs, time, Running.executing, Running.busy, Phase.busy,
        Running.guarded, Phase.guarded, ClockedInstruction.yieldsBefore]
    refine ⟨started ▸ sound.timely.start calm, fun _ => ?_⟩
    simp only [act_operate runs, System.operate, ready, if_true]
    exact cur.trans (by rw [runs]; rfl)
  · have refused : run.act via (.operate (.tstart u)) = run := by
      simp only [act_operate runs, System.operate, ready, Bool.false_eq_true, if_false, Phase.afterOperation,
        allocates, reduceCtorEq, ← runs]
    rw [refused]
    exact sound

/-- What an instruction does to resources and other threads keeps the clocks in order. -/
lemma Sound.operate (sound : run.Sound) {op : Operation} (runs : run.running = .thread t (.execute inst))
    (does : inst ∈ op.instructions) (untroubled : run.sys.Untroubled via t op)
    (calm : ∀ u, op = .tstart u → run.Settled (run.sys.threads u).time) : (run.act via (.operate op)).Sound := by
  obtain ⟨exec, cur⟩ := sound.executes runs
  have goes (res : OperationResult) : run.running.Continues (.thread t (Phase.afterOperation inst res)) :=
    runs ▸ continues_operate t inst res
  by_cases starts : ∃ u, op = .tstart u
  · obtain ⟨u, rfl⟩ := starts
    obtain rfl : inst = .tstart := by simpa [Operation.instructions] using does
    exact sound.tstart runs (calm u rfl)
  · have rest (u : Nat) : op ≠ .tstart u := fun same => starts ⟨u, same⟩
    cases allocated : allocates run.sys op with
    | some u =>
      have alloc : Allocation run.sys (run.act via (.operate op)).sys u (run.sys.threads t).time := by
        rw [act_operate runs]
        exact operate_allocation allocated
      have unused : run.sys.unusedThread = some u := by
        cases op <;> simp_all [allocates]
      have unqueued : ∀ w, (run.sys.threads u).wakeUpTime = some w → w ≤ (run.sys.threads t).time := by
        cases op with
        | allocThread | getst => exact untroubled u unused
        | _ => simp [allocates] at allocated
      apply sound.allocate exec alloc unqueued
      · rw [act_operate runs]
        exact goes _
      · rw [act_operate runs]
      · rw [act_operate runs]
      · rw [act_operate runs]
        simp [allocated, eq_comm]
    | none =>
      obtain ⟨due, later, eff⟩ := System.operate_effects cur untroubled allocated rest
      have unissued : (fun u => if allocates run.sys op = some u then 0 else run.issued u) = run.issued := by
        simp [allocated]
      rw [act_operate runs, unissued]
      exact sound.effects_only eff (now_of_executing exec) later (goes _)

section

variable {now due time t cost : Nat} {sys : System} {change : Thread → Thread} {inst : ClockedInstruction}

lemma Sound.effects_later (sound : run.Sound) (isNow : run.now = some now) (later : now ≤ due) :
    ClockEffects due run.sys run.sys := by
  apply (SameClocks.refl run.sys).effects
  intro u runs
  have exec : run.running.executing = some u := (sound.current_of_now isNow).symm.trans runs
  have clock : (run.sys.threads u).time = now := Option.some.inj ((now_of_executing exec).symm.trans isNow)
  exact clock ▸ later

lemma Sound.scheduleOther (sound : run.Sound) (isNow : run.now = some now) (later : now ≤ time)
    (r : OtherRunnable) : (run.setPlace r (some time)).Sound := by
  have runs : (run.setPlace r (some time)).running = run.running := by cases r <;> rfl
  have rest (o : OtherRunnable) (w : Nat) (put : (run.setPlace r (some time)).others o = some w) :
      run.others o = some w ∨ now ≤ w := by
    rw [setPlace_others] at put
    by_cases same : o = r
    · subst same
      obtain rfl : time = w := by simpa using put
      exact .inr later
    · exact .inl (by simpa [same] using put)
  have same : SameClocks now run.sys (run.setPlace r (some time)).sys := by
    refine .of_threads (run.setPlace_threads r _) (by cases r <;> rfl) (fun u slot _ mem => ?_)
      fun n => rest (.timer n)
    rwa [setPlace_recorded] at mem
  have eff := (sound.effects_later isNow le_rfl).same same
  exact sound.effects _ eff isNow le_rfl (runs ▸ .same _) rest (by cases r <;> rfl)

lemma takeEvent_effects (exec : sys.currentRunnable = some t)
    (time : (change (sys.threads t)).time = (sys.threads t).time + cost)
    (place : (change (sys.threads t)).wakeUpTime = (sys.threads t).wakeUpTime)
    (wait : (change (sys.threads t)).waiting = (sys.threads t).waiting) :
    ∃ due, (sys.threads t).time ≤ due ∧ ClockEffects due sys ((sys.updateThread t change).takePendingEvent t) := by
  have executingAfter : (sys.updateThread t change).currentRunnable = some t := exec
  obtain ⟨due, later, taken⟩ := takePendingEvent_effects executingAfter
  have later : (sys.threads t).time + cost ≤ due := by simpa [System.updateThread, time] using later
  have ticked : ClockEffects due sys (sys.updateThread t change) := by
    apply tick_effects exec
    · rw [time]
      exact Nat.le_add_right _ _
    · rwa [time]
    · exact place
    · intro waits woken
      simp [wait, waits] at woken
  exact ⟨due, (Nat.le_add_right _ _).trans later, ticked.trans taken⟩

variable {lbl : ClockStep}

lemma Sound.of_stuck (sound : run.Sound) (stuck : run.act via lbl = run) :
    (run.act via lbl).Sound ∧ run.WakesRight via lbl := by
  unfold WakesRight
  rw [stuck]
  refine ⟨sound, fun time _ u wait woken => ?_⟩
  simp [wait] at woken

lemma wakesRight_of_none (wakes : run.wakingTime lbl = none) : run.WakesRight via lbl := by
  intro time isWaking
  simp [wakes] at isWaking

lemma Sound.of_effects (sound : run.Sound) {runs : Running}
    (acted : run.act via lbl = { run with sys := sys, running := runs })
    (eff : ClockEffects due run.sys sys) (isNow : run.now = some now) (later : now ≤ due)
    (goes : run.running.Continues runs) (busy : run.running.executing.isSome = true → run.running.busy = true)
    (waking : ∀ time, run.wakingTime lbl = some time → time ≤ due) :
    (run.act via lbl).Sound ∧ run.WakesRight via lbl := by
  constructor
  · rw [acted]
    exact sound.effects_only eff isNow later goes
  · intro time isWaking u wait woken
    rw [acted] at woken ⊢
    obtain ⟨reach, issued⟩ := sound.woken eff isNow later busy wait woken
    exact ⟨(waking time isWaking).trans reach, issued⟩

lemma Sound.of_takeEvent (sound : run.Sound) {phase : Phase} (runs : run.running = .thread t phase)
    (busy : phase.busy = true) (acted : run.act via lbl =
      run.stop (((run.sys.updateThread t change).takePendingEvent t).schedule t))
    (time : (change (run.sys.threads t)).time = (run.sys.threads t).time + cost)
    (place : (change (run.sys.threads t)).wakeUpTime = (run.sys.threads t).wakeUpTime)
    (wait : (change (run.sys.threads t)).waiting = (run.sys.threads t).waiting)
    (waking : run.wakingTime lbl = run.now) : (run.act via lbl).Sound ∧ run.WakesRight via lbl := by
  obtain ⟨exec, cur⟩ := sound.executes runs
  have isNow := now_of_executing exec
  obtain ⟨due, later, eff⟩ := takeEvent_effects cur time place wait
  have goes : run.running.Continues run.running := .same _
  have taken : ({ run with
      sys := (run.sys.updateThread t change).takePendingEvent t, running := run.running } : ClockRun).Sound :=
    sound.effects_only eff isNow later goes
  constructor
  · rw [acted]
    exact taken.yield runs
  · intro now isWaking u waits woken
    obtain rfl : (run.sys.threads t).time = now := Option.some.inj (isNow.symm.trans (waking ▸ isWaking))
    rw [acted] at woken ⊢
    by_cases same : u = t
    · subst same
      have fwd := (eff.current u cur).forward
      have issued : run.issued u ≤ (run.sys.threads u).time :=
        sound.timely.busy (by simpa [clocks, runs, Running.busy] using busy) u exec
      simp only [stop, System.schedule, System.updateThread, Function.update_self]
      exact ⟨fwd, issued.trans fwd⟩
    · have kept : ((run.stop (((run.sys.updateThread t change).takePendingEvent t).schedule t)).sys.threads u) =
          ((run.sys.updateThread t change).takePendingEvent t).threads u := by
        simp [stop, System.schedule, System.updateThread, same]
      rw [kept] at woken ⊢
      have resting : run.running.executing ≠ some u := by
        rw [exec]
        simpa using Ne.symm same
      have effect := eff.thread u (by rw [cur]; simpa using Ne.symm same)
      obtain ⟨reach, issued⟩ := sound.woken_resting effect isNow later resting waits woken
      exact ⟨later.trans reach, issued⟩

lemma Sound.ends (sound : run.Sound) (runs : run.running = .thread t (.execute inst))
    (fwd : (run.sys.threads t).time ≤ (change (run.sys.threads t)).time)
    (place : (change (run.sys.threads t)).wakeUpTime = (run.sys.threads t).wakeUpTime)
    (wait : (change (run.sys.threads t)).waiting = (run.sys.threads t).waiting) :
    ({ run with sys := run.sys.updateThread t change, running := .thread t .fetch } : ClockRun).Sound := by
  obtain ⟨exec, cur⟩ := sound.executes runs
  have ticked := tick_effects cur fwd le_rfl place fun waits woken => by simp [wait, waits] at woken
  refine sound.effects_only ticked (now_of_executing exec) fwd ?_
  rw [runs]
  exact .thread t (by simp [Phase.busy]) (by simp [Phase.guarded])

lemma Sound.done (sound : run.Sound) {r : OtherRunnable} (live : run.running = .other r time) :
    (run.stop run.sys).Sound := by
  have stopped : (run.stop run.sys).clocks = run.clocks.rest := by
    ext1
    case busy => simp [clocks, stop, Running.busy, AgentClocks.rest]
    case guarded => simp [clocks, stop, Running.guarded, AgentClocks.rest]
    case others => funext r; cases r <;> rfl
    all_goals rfl
  refine ⟨stopped ▸ sound.timely.rest fun u runs => ?_, fun notIdle => absurd rfl notIdle⟩
  simp [clocks, live, Running.executing] at runs

lemma now_of_working (works : run.running.working = true) : ∃ now, run.now = some now := by
  unfold Running.working at works
  split at works
  · rename_i runs
    simp [now, runs]
  · rename_i runs
    simp [now, runs]
  · simp at works

lemma busy_of_working (works : run.running.working = true) (runs : run.running.executing.isSome = true) :
    run.running.busy = true := by
  unfold Running.working at works
  split at works
  · rename_i live
    rw [live]
    rfl
  · rename_i live
    simp [live, Running.executing] at runs
  · simp at works

lemma Sound.of_port (sound : run.Sound)
    (acted : run.act via lbl = if run.running.working then { run with sys := sys } else run)
    (later : ∀ now, run.now = some now → now ≤ time)
    (eff : ClockEffects time run.sys run.sys → ClockEffects time run.sys sys)
    (waking : run.wakingTime lbl = some time) :
    (run.act via lbl).Sound ∧ run.WakesRight via lbl := by
  cases works : run.running.working with
  | false => exact sound.of_stuck (by simp [acted, works])
  | true =>
    obtain ⟨now, isNow⟩ := now_of_working works
    have reach := later now isNow
    have acted : run.act via lbl = { run with sys := sys, running := run.running } := by
      simp [acted, works]
    apply sound.of_effects acted (eff (sound.effects_later isNow reach)) isNow reach (.same _)
    · exact busy_of_working works
    · intro due isWaking
      exact (Option.some.inj (waking.symm.trans isWaking)).ge

lemma Sound.wakesRight_operate (sound : run.Sound) {op : Operation}
    (runs : run.running = .thread t (.execute inst)) (untroubled : run.sys.Untroubled via t op) :
    run.WakesRight via (.operate op) := by
  obtain ⟨exec, cur⟩ := sound.executes runs
  have isNow := now_of_executing exec
  by_cases starts : ∃ u, op = .tstart u
  · obtain ⟨u, rfl⟩ := starts
    exact wakesRight_of_none rfl
  · have rest (u : Nat) : op ≠ .tstart u := fun same => starts ⟨u, same⟩
    have waking (time : Nat) (isWaking : run.wakingTime (.operate op) = some time) :
        (run.sys.threads t).time = time := by
      have sameTime : run.wakingTime (.operate op) = run.now := by
        cases op with
        | tstart u => exact absurd rfl (rest u)
        | _ => rfl
      exact Option.some.inj (isNow.symm.trans (sameTime ▸ isWaking))
    intro time isWaking u waits woken
    rw [act_operate runs] at woken ⊢
    obtain rfl := waking time isWaking
    cases allocated : allocates run.sys op with
    | some v =>
      have alloc : Allocation run.sys (run.sys.operate via t op).1 v (run.sys.threads t).time :=
        operate_allocation allocated
      simp [alloc.waiting, waits] at woken
    | none =>
      obtain ⟨due, later, eff⟩ := System.operate_effects cur untroubled allocated rest
      obtain ⟨reach, issued⟩ := sound.woken eff isNow later (fun _ => by rw [runs]; rfl) waits woken
      exact ⟨later.trans reach, issued⟩

/-- Every step that is allowed and careful keeps the clocks in order and wakes threads right. -/
lemma Sound.act (sound : run.Sound) (lbl : ClockStep) (may : run.Allowed lbl)
    (safe : run.Careful via lbl) : (run.act via lbl).Sound ∧ run.WakesRight via lbl := by
  by_cases stuck : run.act via lbl = run
  · exact sound.of_stuck stuck
  -- What is left are the steps that fit the state, one case of `act` each.
  revert stuck
  change (fun lbl => _ → (run.act via lbl).Sound ∧ run.WakesRight via lbl) lbl
  fun_cases ClockRun.act run via lbl <;> intro stuck
  case case1 sys u runs place =>
    obtain ⟨w, place⟩ := Option.isSome_iff_exists.1 place
    exact ⟨sound.dispatch runs place, wakesRight_of_none rfl⟩
  case case4 r runs w place _ => exact ⟨sound.runOther runs place, wakesRight_of_none rfl⟩
  case case5 sys n time runs =>
    have isNow : run.now = some time := by simp only [ClockRun.now, runs]
    have eff := (sound.effects_later isNow le_rfl).timerRun (safe n time runs)
    have acted : run.act via .timerRun =
        { run with sys := run.sys.timerRun n time, running := run.running } := by
      simp only [ClockRun.act, runs]
    apply sound.of_effects acted eff isNow le_rfl (.same _)
    · simp [runs, Running.executing]
    · exact fun waking isWaking => (Option.some.inj (isNow.symm.trans isWaking)).ge
  case case7 sys p kind time works => exact sound.of_port rfl safe (fun eff => eff.portWake p kind) rfl
  case case9 sys p time works => exact sound.of_port rfl safe.1 (fun eff => eff.raiseEvent safe.2) rfl
  case case13 sys inst t runs => exact ⟨sound.issue runs (may t _ runs), wakesRight_of_none rfl⟩
  case case14 sys op t inst runs _ =>
    obtain ⟨untroubled, calm⟩ := safe t inst runs
    exact ⟨sound.operate runs (may t inst runs) untroubled calm,
      sound.wakesRight_operate runs untroubled⟩
  case case18 sys cost t inst runs | case19 sys cost t inst res runs =>
    exact sound.of_takeEvent runs rfl (by simp only [ClockRun.act, runs]; rfl) rfl rfl rfl rfl
  case case2 | case3 | case8 | case10 | case12 | case21 => exact absurd rfl stuck
  all_goals refine ⟨?_, wakesRight_of_none rfl⟩
  case case6 sys r time runs =>
    simp only [ClockRun.act, runs]
    exact sound.done runs
  case case11 r time works =>
    obtain ⟨now, isNow⟩ := now_of_working works
    simp only [ClockRun.act, works, if_true]
    exact sound.scheduleOther isNow (safe now isNow) r
  case case15 sys cost t inst runs =>
    simp only [ClockRun.act, runs]
    exact sound.ends runs (Nat.le_add_right _ cost) rfl rfl
  case case16 sys cost t inst runs =>
    have once : (run.sys.raise t).tick t cost = run.sys.updateThread t fun th =>
        { th with eeble := false, ieble := false, pc := th.kep, time := th.time + cost } := by
      simp [System.raise, System.tick, System.updateThread]
    simp only [ClockRun.act, runs, once]
    exact sound.ends runs (Nat.le_add_right _ cost) rfl rfl
  case case17 sys t runs =>
    simp only [ClockRun.act, runs]
    exact sound.yield runs
  case case20 sys cost t inst res runs =>
    simp only [ClockRun.act, runs]
    exact sound.pause runs (safe t inst res runs) cost

end

end ClockRun

end Axe
