import Mathlib.Data.List.Basic

/-! Endpoints that send packets of tokens to each other. A sender claims its
destination for the length of a packet, others queue for it; a packet to an
endpoint that does not accept any is dropped as a whole. Names, tokens and the
cap of the buffers are arbitrary. -/

namespace PacketNetwork

variable {Name Tok : Type}

structure Endpoint (Name Tok : Type) where
  accepting : Bool
  source : Option Name
  queue : List Name
  dest : Option Name
  buf : List Tok
  inPacket : Bool
  junkPacket : Bool

/-- What one output sends: its tokens, the room it waits for, whether it ends the packet. -/
structure Message (Tok : Type) where
  tokens : List Tok
  room : Nat
  closes : Bool
  fits : tokens.length ≤ room

abbrev Network (Name Tok : Type) := Name → Endpoint Name Tok

inductive Outcome (Name : Type) where
  | blocked
  | junked
  | delivered (d : Name)

variable [DecidableEq Name]

namespace Network

def change (net : Network Name Tok) (c : Name) (f : Endpoint Name Tok → Endpoint Name Tok) : Network Name Tok :=
  Function.update net c (f (net c))

@[simp, grind =]
lemma change_apply (net : Network Name Tok) (c e : Name) (f : Endpoint Name Tok → Endpoint Name Tok) :
    net.change c f e = if e = c then f (net c) else net e := by
  simp [change, Function.update_apply]

/-- Try to open a route for a packet of `s` to `target`; the flag says whether `s` may go on. -/
def openTo (net : Network Name Tok) (s : Name) (dst : Option Name) : Network Name Tok × Bool :=
  if (net s).inPacket then (net, true)
  else
    match dst with
    | none => (net.change s fun ep => { ep with dest := none, junkPacket := true, inPacket := true }, true)
    | some d =>
      if !(net d).accepting then
        (net.change s fun ep => { ep with dest := some d, junkPacket := true, inPacket := true }, true)
      else
        match (net d).source with
        | none =>
          ((net.change d fun ep => { ep with source := some s }).change s
            fun ep => { ep with dest := some d, inPacket := true }, true)
        | some current =>
          if current = s then (net.change s fun ep => { ep with dest := some d, inPacket := true }, true)
          else
            ((net.change s fun ep => { ep with dest := some d }).change d
              fun ep => { ep with queue := ep.queue ++ [s] }, false)

def release (net : Network Name Tok) (d : Name) : Network Name Tok :=
  net.change d fun ep => { ep with source := ep.queue.head?, queue := ep.queue.tail }

def push (net : Network Name Tok) (d : Name) (tokens : List Tok) : Network Name Tok :=
  net.change d fun ep => { ep with buf := ep.buf ++ tokens }

def deliver (net : Network Name Tok) (s d : Name) (msg : Message Tok) : Network Name Tok :=
  if msg.closes then
    ((net.push d msg.tokens).release d).change s fun ep => { ep with inPacket := false, dest := none }
  else net.push d msg.tokens

def dropMessage (net : Network Name Tok) (s : Name) (msg : Message Tok) : Network Name Tok :=
  if msg.closes then net.change s fun ep => { ep with inPacket := false, junkPacket := false } else net

def send (cap : Nat) (net : Network Name Tok) (s : Name) (dst : Option Name) (msg : Message Tok) :
    Network Name Tok × Outcome Name :=
  let (net, opened) := net.openTo s dst
  if !opened then (net, .blocked)
  else if (net s).junkPacket then (net.dropMessage s msg, .junked)
  else
    match (net s).dest with
    | none => (net, .junked)
    | some d =>
      if cap < (net d).buf.length + msg.room then (net, .blocked)
      else (net.deliver s d msg, .delivered d)

def take (net : Network Name Tok) (c : Name) (cnt : Nat) : Network Name Tok :=
  net.change c fun ep => { ep with buf := ep.buf.drop cnt }

def allocate (net : Network Name Tok) (c : Name) : Network Name Tok :=
  net.change c fun ep => { ep with accepting := true, dest := none, inPacket := false, junkPacket := false }

def retire (net : Network Name Tok) (c : Name) : Network Name Tok :=
  net.change c fun ep => { ep with accepting := false }

end Network

inductive Label (Name Tok : Type) where
  | allocate (c : Name)
  | retire (c : Name)
  | send (s : Name) (dst : Option Name) (msg : Message Tok)
  | take (c : Name) (cnt : Nat)

def step (cap : Nat) (net : Network Name Tok) : Label Name Tok → Network Name Tok
  | .allocate c => net.allocate c
  | .retire c => net.retire c
  | .send s dst msg => (net.send cap s dst msg).1
  | .take c cnt => net.take c cnt

/-- Who may do what: only accepting endpoints send, an endpoint is retired when it is idle. -/
def Guard (net : Network Name Tok) : Label Name Tok → Prop
  | .allocate c => (net c).accepting = false
  | .retire c => (net c).buf = [] ∧ (net c).source = none ∧ (net c).inPacket = false
  | .send s _ _ => (net s).accepting = true
  | .take c cnt => cnt ≤ (net c).buf.length

structure Invariant (cap : Nat) (net : Network Name Tok) : Prop where
  owns : ∀ s, (net s).inPacket = true → (net s).junkPacket = false →
    ∃ d, (net s).dest = some d ∧ (net d).source = some s
  closed : ∀ s, (net s).inPacket = false → (net s).junkPacket = false
  active : ∀ s, (net s).inPacket = true → (net s).accepting = true
  claimed : ∀ d, (net d).source.isSome → (net d).accepting = true
  bounded : ∀ c, (net c).buf.length ≤ cap

structure Opening (net post : Network Name Tok) (s : Name) : Prop where
  buf : ∀ c, (post c).buf = (net c).buf
  accepting : ∀ c, (post c).accepting = (net c).accepting
  others : ∀ c, c ≠ s → (post c).inPacket = (net c).inPacket ∧ (post c).junkPacket = (net c).junkPacket ∧
    (post c).dest = (net c).dest
  source : ∀ d, (post d).source = (net d).source ∨
    (net d).source = none ∧ (post d).source = some s ∧ (net d).accepting = true

variable {cap : Nat} {net : Network Name Tok}

lemma openTo_opening (net : Network Name Tok) (s : Name)
    (dst : Option Name) : Opening net (net.openTo s dst).1 s := by
  unfold Network.openTo
  split
  · exact ⟨fun _ => rfl, fun _ => rfl, fun _ _ => ⟨rfl, rfl, rfl⟩, fun _ => .inl rfl⟩
  · split
    · constructor <;> grind
    · split
      · constructor <;> grind
      · split
        · constructor <;> grind
        · split <;> constructor <;> grind

lemma openTo_true (inv : Invariant cap net) (s : Name) (dst : Option Name) : (net.openTo s dst).2 = true →
      ((net.openTo s dst).1 s).inPacket = true ∧ (((net.openTo s dst).1 s).junkPacket = false →
          ∃ d, ((net.openTo s dst).1 s).dest = some d ∧ ((net.openTo s dst).1 d).source = some s) := by
  have owns := inv.owns s
  unfold Network.openTo
  split
  · grind
  · split
    · grind
    · split
      · grind
      · split
        · grind
        · split <;> grind

lemma openTo_false (inv : Invariant cap net) (s : Name) (dst : Option Name) : (net.openTo s dst).2 = false →
      ((net.openTo s dst).1 s).inPacket = false ∧ ((net.openTo s dst).1 s).junkPacket = false := by
  have closed := inv.closed s
  unfold Network.openTo
  split
  · simp
  · split
    · simp
    · split
      · simp
      · split
        · simp
        · split <;> grind

variable {s : Name}

lemma Invariant.openTo (inv : Invariant cap net) (act : (net s).accepting = true)
    (dst : Option Name) : Invariant cap (net.openTo s dst).1 := by
  have opens := openTo_opening net s dst
  refine ⟨?_, ?_, ?_, ?_, ?_⟩
  · intro c pkt kept
    by_cases own : c = s
    · subst own
      cases res : (net.openTo c dst).2 with
      | true => exact (openTo_true inv c dst res).2 kept
      | false => simp [(openTo_false inv c dst res).1] at pkt
    · obtain ⟨samePacket, sameJunk, sameDest⟩ := opens.others c own
      obtain ⟨d, dest, src⟩ := inv.owns c (samePacket ▸ pkt) (sameJunk ▸ kept)
      refine ⟨d, sameDest ▸ dest, ?_⟩
      rcases opens.source d with same | ⟨free, -, -⟩
      · rw [same, src]
      · simp [free] at src
  · intro c pkt
    by_cases own : c = s
    · subst own
      cases res : (net.openTo c dst).2 with
      | true => simp [(openTo_true inv c dst res).1] at pkt
      | false => exact (openTo_false inv c dst res).2
    · obtain ⟨samePacket, sameJunk, -⟩ := opens.others c own
      rw [sameJunk]
      exact inv.closed c (samePacket ▸ pkt)
  · intro c pkt
    rw [opens.accepting]
    by_cases own : c = s
    · exact own ▸ act
    · exact inv.active c ((opens.others c own).1 ▸ pkt)
  · intro d claimed
    rw [opens.accepting]
    rcases opens.source d with same | ⟨-, -, acc⟩
    · exact inv.claimed d (same ▸ claimed)
    · exact acc
  · intro c
    rw [opens.buf]
    exact inv.bounded c

structure Ready (cap : Nat) (net : Network Name Tok) (s d : Name) (msg : Message Tok) : Prop where
  packet : (net s).inPacket = true
  kept : (net s).junkPacket = false
  dest : (net s).dest = some d
  source : (net d).source = some s
  room : (net d).buf.length + msg.room ≤ cap

structure Delivery (net post : Network Name Tok) (s d : Name) (msg : Message Tok) : Prop where
  buf : ∀ c, (post c).buf = if c = d then (net c).buf ++ msg.tokens else (net c).buf
  accepting : ∀ c, (post c).accepting = (net c).accepting
  junkPacket : ∀ c, (post c).junkPacket = (net c).junkPacket
  inPacket : ∀ c, (post c).inPacket = if msg.closes = true ∧ c = s then false else (net c).inPacket
  dest : ∀ c, (post c).dest = if msg.closes = true ∧ c = s then none else (net c).dest
  source : ∀ c, (post c).source = if msg.closes = true ∧ c = d then (net c).queue.head? else (net c).source
  queue : ∀ c, (post c).queue = if msg.closes = true ∧ c = d then (net c).queue.tail else (net c).queue

lemma deliver_delivery (net : Network Name Tok) (s d : Name) (msg : Message Tok) :
    Delivery net (net.deliver s d msg) s d msg := by
  unfold Network.deliver Network.release Network.push
  split
  · constructor <;> grind
  · constructor <;> grind

variable {d : Name}

section

variable (inv : Invariant cap net)
include inv

lemma Invariant.deliver {msg : Message Tok}
    (ready : Ready cap net s d msg) : Invariant cap (net.deliver s d msg) := by
  have sent := deliver_delivery net s d msg
  refine ⟨fun c pkt kept => ?_, fun c pkt => ?_, fun c pkt => ?_, fun c own => ?_, fun c => ?_⟩
  · rw [sent.inPacket] at pkt
    split_ifs at pkt with closing
    obtain ⟨e, dest, src⟩ := inv.owns c pkt (sent.junkPacket c ▸ kept)
    refine ⟨e, by rw [sent.dest, if_neg closing, dest], ?_⟩
    -- Another open packet does not go to `d`: that is claimed by `s`.
    have away : ¬ (msg.closes = true ∧ e = d) := by
      rintro ⟨closes, rfl⟩
      exact closing ⟨closes, by simpa [ready.source] using src.symm⟩
    rw [sent.source, if_neg away, src]
  · rw [sent.junkPacket]
    rw [sent.inPacket] at pkt
    split_ifs at pkt with closing
    · exact closing.2 ▸ ready.kept
    · exact inv.closed c pkt
  · rw [sent.inPacket] at pkt
    split_ifs at pkt
    rw [sent.accepting]
    exact inv.active c pkt
  · rw [sent.accepting]
    rw [sent.source] at own
    split_ifs at own with closing
    · exact inv.claimed c (by simp [closing.2, ready.source])
    · exact inv.claimed c own
  · rw [sent.buf]
    split_ifs with here
    · have room := ready.room
      have fits := msg.fits
      rw [List.length_append, here]
      omega
    · exact inv.bounded c

lemma Invariant.dropMessage (junk : (net s).junkPacket = true)
    (msg : Message Tok) : Invariant cap (net.dropMessage s msg) := by
  obtain ⟨owns, closed, act, claimed, le⟩ := inv
  unfold Network.dropMessage
  split
  · refine ⟨fun c pkt kept => ?_, fun c pkt => ?_, fun c pkt => ?_, fun c src => ?_, fun c => ?_⟩
    · by_cases own : c = s
      · simp [own] at pkt
      · simp only [Network.change_apply, own, if_false] at pkt kept ⊢
        obtain ⟨d, dest, src⟩ := owns c pkt kept
        exact ⟨d, dest, by split_ifs with same <;> simp_all⟩
    · have := closed c
      grind
    · have := act c
      grind
    · have := claimed c
      grind
    · have := le c
      grind
  · exact ⟨owns, closed, act, claimed, le⟩

lemma send_cases (s : Name) (dst : Option Name) (msg : Message Tok) :
    net.send cap s dst msg = ((net.openTo s dst).1, .blocked) ∨
    (((net.openTo s dst).1 s).inPacket = true ∧ ((net.openTo s dst).1 s).junkPacket = true ∧
      net.send cap s dst msg = ((net.openTo s dst).1.dropMessage s msg, .junked)) ∨
    ∃ d, Ready cap (net.openTo s dst).1 s d msg ∧
      net.send cap s dst msg = ((net.openTo s dst).1.deliver s d msg, .delivered d) := by
  have opens := openTo_true inv s dst
  unfold Network.send
  cases opened : (net.openTo s dst).2 with
  | false => simp [opened]
  | true =>
    obtain ⟨pkt, owns⟩ := opens opened
    cases junk : ((net.openTo s dst).1 s).junkPacket with
    | true => exact .inr (.inl ⟨pkt, rfl, by simp [opened, junk]⟩)
    | false =>
      obtain ⟨d, dest, src⟩ := owns junk
      by_cases room : cap < ((net.openTo s dst).1 d).buf.length + msg.room
      · exact .inl (by simp [opened, junk, dest, room])
      · refine .inr (.inr ⟨d, ⟨pkt, junk, dest, src, by omega⟩, ?_⟩)
        simp [opened, junk, dest, room]

lemma Invariant.send (act : (net s).accepting = true) (dst : Option Name) (msg : Message Tok) :
    Invariant cap (net.send cap s dst msg).1 := by
  have opened := inv.openTo act dst
  rcases send_cases inv s dst msg with blocked | ⟨-, junk, junked⟩ | ⟨d, ready, sent⟩
  · rw [blocked]
    exact opened
  · rw [junked]
    exact opened.dropMessage junk msg
  · rw [sent]
    exact opened.deliver ready

end

lemma Invariant.step (net : Network Name Tok) (lbl : Label Name Tok) (inv : Invariant cap net)
    (guard : Guard net lbl) : Invariant cap (step cap net lbl) := by
  cases lbl with
  | send s dst msg => exact inv.send guard dst msg
  | allocate c =>
    -- A retired endpoint has no open packet, and no one owns it.
    obtain ⟨owns, closed, act, own, le⟩ := inv
    unfold PacketNetwork.step Network.allocate
    constructor <;> grind
  | retire c =>
    obtain ⟨owns, closed, act, own, le⟩ := inv
    obtain ⟨empty, free, idle⟩ := guard
    unfold PacketNetwork.step Network.retire
    constructor <;> grind
  | take c cnt =>
    obtain ⟨owns, closed, act, own, le⟩ := inv
    unfold PacketNetwork.step Network.take
    constructor <;> grind

def delivered (cap : Nat) (c : Name) (net : Network Name Tok) : Label Name Tok → List Tok
  | .send s dst msg =>
    match (net.send cap s dst msg).2 with
    | .delivered d => if d = c then msg.tokens else []
    | _ => []
  | _ => []

def taken (c : Name) (net : Network Name Tok) : Label Name Tok → List Tok
  | .take e cnt => if e = c then (net c).buf.take cnt else []
  | _ => []

lemma send_buf (inv : Invariant cap net) (dst : Option Name) (msg : Message Tok) (c : Name) :
    ((net.send cap s dst msg).1 c).buf = (net c).buf ++ delivered cap c net (.send s dst msg) := by
  have opens := openTo_opening net s dst
  rcases send_cases inv s dst msg with blocked | ⟨-, -, junked⟩ | ⟨d, -, sent⟩
  · simp [delivered, blocked, opens.buf]
  · rw [junked, delivered, junked]
    unfold Network.dropMessage
    split <;> grind [opens.buf]
  · have delivery := deliver_delivery (net.openTo s dst).1 s d msg
    rw [sent, delivered, sent, delivery.buf, opens.buf]
    by_cases here : c = d
    · simp [here]
    · simp [here, Ne.symm here]

variable {lbl : Label Name Tok}

/-- Tokens leave a buffer in the order in which they came, and none is lost. -/
lemma step_stream (inv : Invariant cap net) (lbl : Label Name Tok) (c : Name) :
    taken c net lbl ++ (step cap net lbl c).buf = (net c).buf ++ delivered cap c net lbl := by
  cases lbl with
  | send s dst msg => simpa [taken, step] using send_buf inv dst msg c
  | take e cnt =>
    by_cases here : e = c
    · subst here
      simp [taken, delivered, step, Network.take]
    · simp [taken, delivered, step, Network.take, here, Ne.symm here]
  | allocate e =>
    by_cases here : c = e <;> simp [taken, delivered, step, Network.allocate, here]
  | retire e =>
    by_cases here : c = e <;> simp [taken, delivered, step, Network.retire, here]

def packetState (ep : Endpoint Name Tok) : Bool × Bool × Option Name := (ep.inPacket, ep.junkPacket, ep.dest)

def Closes (cap : Nat) (net : Network Name Tok) (s : Name) : Label Name Tok → Prop
  | .send sender dst msg =>
    sender = s ∧ msg.closes = true ∧ (net.send cap sender dst msg).2 ≠ .blocked
  | _ => False

lemma step_packetState (inv : Invariant cap net) (guard : Guard net lbl) (pkt : (net s).inPacket = true)
    (stays : ¬ Closes cap net s lbl) : packetState (step cap net lbl s) = packetState (net s) := by
  cases lbl with
  | allocate c =>
    have other : s ≠ c := by
      rintro rfl
      simp [Guard, inv.active s pkt] at guard
    simp [step, Network.allocate, other]
  | retire c => by_cases here : s = c <;> simp [step, Network.retire, packetState, here]
  | take c cnt => by_cases here : s = c <;> simp [step, Network.take, packetState, here]
  | send sender dst msg =>
    have same : packetState ((net.openTo sender dst).1 s) = packetState (net s) := by
      by_cases own : s = sender
      · subst own
        simp [Network.openTo, pkt]
      · obtain ⟨samePacket, sameJunk, sameDest⟩ := (openTo_opening net sender dst).others s own
        simp [packetState, samePacket, sameJunk, sameDest]
    have goes : s = sender → msg.closes = true →
        (net.send cap sender dst msg).2 = .blocked := by
      intro own closes
      by_contra completed
      exact stays ⟨own.symm, closes, completed⟩
    rw [← same]
    rcases send_cases inv sender dst msg with blocked | ⟨-, -, junked⟩ | ⟨d, -, sent⟩
    · simp [step, blocked]
    · simp only [step, junked, reduceCtorEq, imp_false] at goes ⊢
      unfold Network.dropMessage
      grind
    · have delivery := deliver_delivery (net.openTo sender dst).1 sender d msg
      simp only [step, sent, reduceCtorEq, imp_false] at goes ⊢
      have open_ : ¬ (msg.closes = true ∧ s = sender) := fun both => goes both.2 both.1
      simp [packetState, delivery.inPacket, delivery.junkPacket, delivery.dest, open_]

variable {dst : Option Name}

lemma delivered_by_owner (inv : Invariant cap net) {sender : Name} (pkt : (net s).inPacket = true)
    (kept : (net s).junkPacket = false) (dest : (net s).dest = some d) {msg : Message Tok}
    (sent : (net.send cap sender dst msg).2 = .delivered d) : sender = s := by
  obtain ⟨e, toward, owner⟩ := inv.owns s pkt kept
  obtain rfl : e = d := by simpa [dest] using toward.symm
  rcases send_cases inv sender dst msg with blocked | ⟨-, -, junked⟩ | ⟨e', ready, sends⟩
  · simp [blocked] at sent
  · simp [junked] at sent
  · obtain rfl : e' = e := by simpa [sends] using sent
    rcases (openTo_opening net sender dst).source e' with same | ⟨free, -, -⟩
    · simpa [same, owner] using ready.source.symm
    · simp [free] at owner

lemma send_junked (cap : Nat) {net : Network Name Tok} (pkt : (net s).inPacket = true)
    (junk : (net s).junkPacket = true) (dst : Option Name) (msg : Message Tok) :
    net.send cap s dst msg = (net.dropMessage s msg, .junked) := by
  simp [Network.send, Network.openTo, pkt, junk]

lemma send_refused (cap : Nat) {net : Network Name Tok} (idle : (net s).inPacket = false)
    (refused : ∀ d, dst = some d → (net d).accepting = false) (msg : Message Tok) :
    (net.send cap s dst msg).2 = .junked ∧
      (msg.closes = false → ((net.send cap s dst msg).1 s).inPacket = true ∧
        ((net.send cap s dst msg).1 s).junkPacket = true) := by
  cases dst with
  | none =>
    refine ⟨by simp [Network.send, Network.openTo, idle], fun goes => ?_⟩
    simp [Network.send, Network.openTo, idle, Network.dropMessage, goes]
  | some d =>
    have closed := refused d rfl
    refine ⟨by simp [Network.send, Network.openTo, idle, closed], fun goes => ?_⟩
    simp [Network.send, Network.openTo, idle, closed, Network.dropMessage, goes]

/-- The packet of `s` leads to `d`, or would if it was opened now. -/
def Reaches (net : Network Name Tok) (s : Name) (dst : Option Name) (d : Name) : Prop :=
  ((net s).inPacket = true ∧ (net s).junkPacket = false ∧ (net s).dest = some d) ∨
    ((net s).inPacket = false ∧ dst = some d ∧ (net d).accepting = true ∧
      ((net d).source = none ∨ (net d).source = some s))

section

variable (inv : Invariant cap net)
include inv

lemma openTo_reaches : ((net.openTo s dst).2 = true ∧ ((net.openTo s dst).1 s).junkPacket = false ∧
      ((net.openTo s dst).1 s).dest = some d) ↔ Reaches net s dst d := by
  have closed := inv.closed s
  unfold Network.openTo Reaches
  cases pkt : (net s).inPacket with
  | true => simp
  | false =>
    cases dst with
    | none => simp
    | some e =>
      have kept : ∀ f : Endpoint Name Tok → Endpoint Name Tok, net.change s f s = f (net s) := by
        simp [Network.change]
      dsimp only
      cases acc : (net e).accepting with
      | false =>
        simp only [Bool.false_eq_true, if_false, Bool.not_false, if_true, kept]
        grind
      | true =>
        cases src : (net e).source with
        | none =>
          simp only [Bool.false_eq_true, if_false, Bool.not_true]
          grind
        | some current =>
          by_cases mine : current = s
          · simp only [Bool.false_eq_true, if_false, Bool.not_true, mine, if_true, kept]
            grind
          · simp only [Bool.false_eq_true, if_false, Bool.not_true, mine]
            grind

lemma send_delivered_iff (msg : Message Tok) : (net.send cap s dst msg).2 = .delivered d ↔
      Reaches net s dst d ∧ (net d).buf.length + msg.room ≤ cap := by
  rw [← openTo_reaches inv, ← (openTo_opening net s dst).buf d]
  unfold Network.send
  generalize net.openTo s dst = result
  obtain ⟨post, opened⟩ := result
  cases opened with
  | false => simp
  | true =>
    cases junk : (post s).junkPacket with
    | true => simp [junk]
    | false =>
      cases dest : (post s).dest with
      | none => simp [junk, dest]
      | some e =>
        by_cases full : cap < (post e).buf.length + msg.room
        · simp only [junk, dest, full]
          grind
        · simp only [junk, dest, full]
          grind

/-! ### Answers

An endpoint outside the protocol can place a whole packet at once: it claims the destination, delivers and releases
it in one step. -/

def Network.answer (net : Network Name Tok) (d : Name) (tokens : List Tok) : Network Name Tok :=
  net.change d fun ep => { ep with buf := ep.buf ++ tokens, source := ep.queue.head?, queue := ep.queue.tail }

lemma Invariant.answer {tokens : List Tok}
    (unowned : ∀ s, (net d).source = some s → (net s).inPacket = false) (acc : (net d).accepting = true)
    (room : (net d).buf.length + tokens.length ≤ cap) : Invariant cap (net.answer d tokens) := by
  obtain ⟨owns, closed, act, own, le⟩ := inv
  unfold Network.answer
  refine ⟨fun s pkt kept => ?_, fun s pkt => ?_, fun s pkt => ?_, fun e src => ?_, fun e => ?_⟩
  · have samePacket : (net s).inPacket = true := by
      rw [Network.change_apply] at pkt
      split at pkt
      · rename_i here
        exact here ▸ pkt
      · exact pkt
    have sameJunk : (net s).junkPacket = false := by
      rw [Network.change_apply] at kept
      split at kept
      · rename_i here
        exact here ▸ kept
      · exact kept
    obtain ⟨e, dest, src⟩ := owns s samePacket sameJunk
    -- The destination of an open packet is not the one that is answered.
    have away : e ≠ d := by
      rintro rfl
      rw [unowned s src] at samePacket
      cases samePacket
    exact ⟨e, by grind, by grind⟩
  · have := closed s
    grind
  · have := act s
    grind
  · have := own e
    grind
  · have := le e
    grind

def Label.actor : Label Name Tok → Name
  | .allocate c => c
  | .retire c => c
  | .send s _ _ => s
  | .take c _ => c

lemma step_inPacket {c : Name} (other : c ≠ lbl.actor) : (step cap net lbl c).inPacket = (net c).inPacket := by
  cases lbl with
  | allocate e =>
    have away : c ≠ e := other
    simp [step, Network.allocate, away]
  | retire e => by_cases here : c = e <;> simp [step, Network.retire, here]
  | take e cnt => by_cases here : c = e <;> simp [step, Network.take, here]
  | send s dst msg =>
    have away : c ≠ s := other
    rw [← ((openTo_opening net s dst).others c away).1]
    rcases send_cases inv s dst msg with blocked | ⟨-, -, junked⟩ | ⟨d, -, sent⟩
    · simp [step, blocked]
    · simp only [step, junked]
      unfold Network.dropMessage
      split <;> simp [away]
    · simp only [step, sent]
      rw [(deliver_delivery _ s d msg).inPacket, if_neg fun both => away both.2]

/-- A destination keeps its source until the end of the packet is delivered. -/
lemma step_source (owned : (net d).source = some s)
    (stays : ∀ sender dst msg, lbl = .send sender dst msg →
      (net.send cap sender dst msg).2 ≠ .delivered d) : (step cap net lbl d).source = some s := by
  cases lbl with
  | allocate e => by_cases here : d = e <;> simp [step, Network.allocate, here, ← owned]
  | retire e => by_cases here : d = e <;> simp [step, Network.retire, here, ← owned]
  | take e cnt => by_cases here : d = e <;> simp [step, Network.take, here, ← owned]
  | send sender dst msg =>
    have still : ((net.openTo sender dst).1 d).source = some s := by
      rcases (openTo_opening net sender dst).source d with same | ⟨free, -, -⟩
      · rw [same, owned]
      · rw [owned] at free
        cases free
    have away := stays sender dst msg rfl
    rcases send_cases inv sender dst msg with blocked | ⟨-, -, junked⟩ | ⟨e, -, sent⟩
    · simp [step, blocked, still]
    · simp only [step, junked]
      unfold Network.dropMessage
      split
      · by_cases here : d = sender <;> simp [here, ← still]
      · exact still
    · have apart : d ≠ e := by
        rintro rfl
        exact away (by rw [sent])
      simp only [step, sent]
      rw [(deliver_delivery _ sender e msg).source, if_neg fun both => apart both.2, still]

end

end PacketNetwork
