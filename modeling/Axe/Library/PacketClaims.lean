import Axe.Library.PacketNetwork

/-! Who has a claim on an endpoint: the source of the present packet and those that
queue behind it. A claim is made once and given up with the end of the packet. -/

namespace PacketNetwork

open Network

variable {Name Tok : Type}

def Endpoint.claims (ep : Endpoint Name Tok) : List Name := ep.source.toList ++ ep.queue

def Claimant (net : Network Name Tok) (d s : Name) : Prop :=
  (net s).accepting = true ∧ (net s).junkPacket = false ∧ (net s).dest = some d

structure Orderly (net : Network Name Tok) : Prop where
  nodup : ∀ d, (net d).claims.Nodup
  led : ∀ d, (net d).source = none → (net d).queue = []
  member : ∀ d s, s ∈ (net d).claims → Claimant net d s
  queued : ∀ d s, s ∈ (net d).queue → (net s).inPacket = false

/-- No endpoint claims twice, or leaves a claim behind. -/
def Fair (net : Network Name Tok) : Label Name Tok → Prop
  | .send s dst _ => (net s).inPacket = false → ∀ d, s ∉ (net d).queue ∧ ((net d).source = some s → dst = some d)
  | .retire c => ∀ d, c ∉ (net d).claims
  | _ => True

variable {cap : Nat} {net : Network Name Tok}

variable {s : Name}

lemma mem_claims {ep : Endpoint Name Tok} : s ∈ ep.claims ↔ ep.source = some s ∨ s ∈ ep.queue := by
  simp [Endpoint.claims]

variable {d : Name}

lemma Orderly.claims_unique (tidy : Orderly net) {e : Name} (first : s ∈ (net d).claims)
    (snd : s ∈ (net e).claims) : d = e :=
  Option.some.inj ((tidy.member d s first).2.2.symm.trans (tidy.member e s snd).2.2)

lemma Orderly.source_not_queued (tidy : Orderly net) {e : Name} (src : (net d).source = some s) :
    s ∉ (net e).queue := by
  intro queued
  obtain rfl := tidy.claims_unique (mem_claims.mpr (.inl src)) (mem_claims.mpr (.inr queued))
  have nodup := tidy.nodup d
  simp [Endpoint.claims, src, queued] at nodup

/-- An idle sender without a claim of its own has none anywhere else. -/
lemma Fair.unclaimed {dst : Option Name} {msg : Message Tok}
    (fair : Fair net (.send s dst msg)) (idle : (net s).inPacket = false) (named : dst = some d)
    (other : (net d).source ≠ some s) (e : Name) : s ∉ (net e).claims := by
  intro mem
  rcases mem_claims.mp mem with src | queued
  · obtain rfl : e = d := Option.some.inj (((fair idle e).2 src).symm.trans named)
    exact other src
  · exact (fair idle e).1 queued

lemma Orderly.join {post : Network Name Tok} (tidy : Orderly net) (absent : ∀ e, s ∉ (net e).claims)
    (claims : ∀ e, (post e).claims = (net e).claims ∨ e = d ∧ (post e).claims = (net e).claims ++ [s])
    (led : ∀ e, (post e).source = none → (post e).queue = [])
    (stays : ∀ e c, c ∈ (net e).claims → Claimant post e c) (own : Claimant post d s)
    (queued : ∀ e c, c ∈ (post e).queue → (post c).inPacket = false) : Orderly post := by
  refine ⟨fun e => ?_, led, fun e c mem => ?_, queued⟩
  · rcases claims e with same | ⟨-, more⟩
    · rw [same]
      exact tidy.nodup e
    · rw [more, List.nodup_append]
      exact ⟨tidy.nodup e, by simp, by grind⟩
  · rcases claims e with same | ⟨rfl, more⟩
    · exact stays e c (same ▸ mem)
    · rw [more, List.mem_append, List.mem_singleton] at mem
      rcases mem with pre | rfl
      · exact stays e c pre
      · exact own

variable [DecidableEq Name]

/-- What an attempt to open a route makes of the claims. -/
inductive Claiming (net : Network Name Tok) (s : Name) (dst : Option Name) : Network Name Tok × Bool → Prop where
  | same {post : Network Name Tok} (src : ∀ d, (post d).source = (net d).source)
      (q : ∀ d, (post d).queue = (net d).queue) (packet : (post s).inPacket = true) :
      Claiming net s dst (post, true)
  | first {post : Network Name Tok} (d : Name) (named : dst = some d) (idle : (net s).inPacket = false)
      (unclaimed : (net d).source = none)
      (src : ∀ e, (post e).source = if e = d then some s else (net e).source)
      (q : ∀ e, (post e).queue = (net e).queue) (packet : (post s).inPacket = true)
      (kept : (post s).junkPacket = false) (dest : (post s).dest = some d) : Claiming net s dst (post, true)
  | queued {post : Network Name Tok} (d cur : Name) (named : dst = some d) (idle : (net s).inPacket = false)
      (claimed : (net d).source = some cur) (other : cur ≠ s)
      (src : ∀ e, (post e).source = (net e).source)
      (q : ∀ e, (post e).queue = if e = d then (net d).queue ++ [s] else (net e).queue)
      (packet : (post s).inPacket = false) (kept : (post s).junkPacket = false)
      (dest : (post s).dest = some d) : Claiming net s dst (post, false)

lemma openTo_claiming (inv : Invariant cap net) (s : Name) (dst : Option Name) :
    Claiming net s dst (net.openTo s dst) := by
  have closed := inv.closed s
  unfold openTo
  split
  · exact .same (fun _ => rfl) (fun _ => rfl) ‹_›
  · split
    · apply Claiming.same <;> grind
    · split
      · apply Claiming.same <;> grind
      · rename_i d acc
        split
        · apply Claiming.first d rfl <;> grind
        · rename_i cur own
          split
          · apply Claiming.same <;> grind
          · apply Claiming.queued d cur rfl <;> grind

section

variable {s : Name} {dst : Option Name} {msg : Message Tok}

lemma Orderly.openTo_own (tidy : Orderly net) (inv : Invariant cap net)
    (fair : Fair net (.send s dst msg)) {d : Name} (mem : s ∈ (net d).claims) :
    ((net.openTo s dst).1 s).junkPacket = false ∧ ((net.openTo s dst).1 s).dest = some d := by
  obtain ⟨-, kept, dest⟩ := tidy.member d s mem
  cases pkt : (net s).inPacket with
  | true => simp [openTo, pkt, kept, dest]
  | false =>
    have src := (mem_claims.mp mem).resolve_right (fair pkt d).1
    obtain rfl := (fair pkt d).2 src
    have acc : (net d).accepting = true := inv.claimed d (by simp [src])
    simp [openTo, pkt, acc, src, kept]

lemma Orderly.openTo (tidy : Orderly net) (inv : Invariant cap net) (act : (net s).accepting = true)
    (fair : Fair net (.send s dst msg)) : Orderly (net.openTo s dst).1 := by
  have opens := openTo_opening net s dst
  have claiming := openTo_claiming inv s dst
  -- What was a claim before is one now, whether or not it is that of `s`.
  have stays (d c : Name) (mem : c ∈ (net d).claims) : Claimant (net.openTo s dst).1 d c := by
    obtain ⟨acc, kept, dest⟩ := tidy.member d c mem
    by_cases mine : c = s
    · subst mine
      exact ⟨by rw [opens.accepting, acc], tidy.openTo_own inv fair mem⟩
    · obtain ⟨-, sameJunk, sameDest⟩ := opens.others c mine
      exact ⟨by rw [opens.accepting, acc], sameJunk.trans kept, sameDest.trans dest⟩
  have act : ((net.openTo s dst).1 s).accepting = true := by rw [opens.accepting, act]
  have notQueued (d : Name) : s ∉ (net d).queue := fun queued => (fair (tidy.queued d s queued) d).1 queued
  have waits (d c : Name) (queued : c ∈ (net d).queue) : ((net.openTo s dst).1 c).inPacket = false := by
    have other : c ≠ s := by
      rintro rfl
      exact notQueued d queued
    exact (opens.others c other).1.trans (tidy.queued d c queued)
  generalize net.openTo s dst = result at claiming stays act waits ⊢
  cases claiming with
  | same src q pkt =>
    constructor
    · intro d
      simpa only [Endpoint.claims, src, q] using tidy.nodup d
    · intro d
      rw [src, q]
      exact tidy.led d
    · intro d c mem
      exact stays d c (by simpa only [mem_claims, src, q] using mem)
    · intro d c queued
      exact waits d c (q d ▸ queued)
  | first d named idle unclaimed src q pkt kept dest =>
    apply tidy.join (fair.unclaimed idle named (by simp [unclaimed])) _ _ stays ⟨act, kept, dest⟩
    · intro e c queued
      exact waits e c (q e ▸ queued)
    · intro e
      by_cases here : e = d
      · subst here
        exact .inr ⟨rfl, by simp [Endpoint.claims, src, q, unclaimed, tidy.led e unclaimed]⟩
      · exact .inl (by simp [Endpoint.claims, src, q, here])
    · intro e none
      rw [src] at none
      split at none
      · simp at none
      · rw [q, tidy.led e none]
  | queued d cur named idle own other src q pkt kept dest =>
    apply tidy.join (fair.unclaimed idle named (by simpa [own] using other)) _ _ stays ⟨act, kept, dest⟩
    · intro e c queued
      rw [q] at queued
      split at queued
      · rcases List.mem_append.mp queued with pre | new
        · exact waits d c pre
        · rw [List.mem_singleton.mp new, pkt]
      · exact waits e c queued
    · intro e
      by_cases here : e = d
      · subst here
        exact .inr ⟨rfl, by simp [Endpoint.claims, src, q]⟩
      · exact .inl (by simp [Endpoint.claims, src, q, here])
    · intro e none
      rw [src] at none
      have away : e ≠ d := by
        rintro rfl
        simp [none] at own
      rw [q, if_neg away, tidy.led e none]

end

section

variable (tidy : Orderly net)
include tidy

lemma Orderly.deliver {msg : Message Tok}
    (ready : Ready cap net s d msg) : Orderly (net.deliver s d msg) := by
  have sent := deliver_delivery net s d msg
  have nodup := tidy.nodup d
  rw [Endpoint.claims, ready.source, Option.toList_some, List.singleton_append, List.nodup_cons] at nodup
  -- The sender gives up its claim, and those behind it move up.
  have claims (e : Name) : ((net.deliver s d msg) e).claims =
      if msg.closes = true ∧ e = d then (net d).queue else (net e).claims := by
    rw [Endpoint.claims, sent.source, sent.queue]
    split_ifs with closing
    · rw [closing.2]
      cases (net d).queue <;> rfl
    · rfl
  have own : s ∈ (net d).claims := mem_claims.mpr (.inl ready.source)
  constructor
  · intro e
    rw [claims]
    split
    · exact nodup.2
    · exact tidy.nodup e
  · intro e none
    rw [sent.source] at none
    rw [sent.queue]
    split at none
    · rw [List.head?_eq_none_iff.mp none, List.tail_nil, ite_self]
    · rw [if_neg ‹_›, tidy.led e none]
  · intro e c mem
    have pre : c ∈ (net e).claims ∧ ¬ (msg.closes = true ∧ c = s) := by
      rw [claims] at mem
      split at mem
      · rename_i closing
        rw [closing.2]
        refine ⟨mem_claims.mpr (.inr mem), ?_⟩
        rintro ⟨-, rfl⟩
        exact nodup.1 mem
      · rename_i closing
        refine ⟨mem, ?_⟩
        rintro ⟨closes, rfl⟩
        exact closing ⟨closes, tidy.claims_unique mem own⟩
    obtain ⟨acc, kept, dest⟩ := tidy.member e c pre.1
    refine ⟨?_, ?_, ?_⟩
    · rw [sent.accepting, acc]
    · rw [sent.junkPacket, kept]
    · rw [sent.dest, if_neg pre.2, dest]
  · intro e c queued
    have pre : c ∈ (net e).queue := by
      rw [sent.queue] at queued
      split at queued
      · exact List.mem_of_mem_tail queued
      · exact queued
    rw [sent.inPacket, tidy.queued e c pre, ite_self]

lemma Orderly.change (c : Name) {f : Endpoint Name Tok → Endpoint Name Tok}
    (claims : ∀ ep, (f ep).source = ep.source ∧ (f ep).queue = ep.queue)
    (own : (∀ d, c ∉ (net d).claims) ∨ ∀ ep : Endpoint Name Tok, (f ep).accepting = ep.accepting ∧
      packetState (f ep) = packetState ep) : Orderly (net.change c f) := by
  have src (e : Name) : (net.change c f e).source = (net e).source := by
    by_cases here : e = c <;> simp [here, claims]
  have q (e : Name) : (net.change c f e).queue = (net e).queue := by
    by_cases here : e = c <;> simp [here, claims]
  have state {d s : Name} (mem : s ∈ (net d).claims) : (net.change c f s).accepting = (net s).accepting ∧
      packetState (net.change c f s) = packetState (net s) := by
    by_cases here : s = c
    · subst here
      simpa using own.resolve_left (fun absent => absent d mem) (net s)
    · simp [here]
  constructor
  · intro d
    simpa only [Endpoint.claims, src, q] using tidy.nodup d
  · intro d
    rw [src, q]
    exact tidy.led d
  · intro d s mem
    have pre : s ∈ (net d).claims := by simpa only [mem_claims, src, q] using mem
    obtain ⟨acc, same⟩ := state pre
    simp only [packetState, Prod.mk.injEq] at same
    rw [Claimant, acc, same.2.1, same.2.2]
    exact tidy.member d s pre
  · intro d s queued
    rw [q] at queued
    exact (congrArg Prod.fst (state (mem_claims.mpr (.inr queued))).2).trans (tidy.queued d s queued)

lemma Orderly.dropMessage (junk : (net s).junkPacket = true)
    (msg : Message Tok) : Orderly (net.dropMessage s msg) := by
  unfold Network.dropMessage
  split
  · apply tidy.change s
    · exact fun _ => ⟨rfl, rfl⟩
    · -- The sender of a dropped packet has no claim.
      refine .inl fun d mem => ?_
      simp [(tidy.member d s mem).2.1] at junk
  · exact tidy

lemma Orderly.step (inv : Invariant cap net) {lbl : Label Name Tok}
    (guard : Guard net lbl) (fair : Fair net lbl) : Orderly (step cap net lbl) := by
  cases lbl with
  | send s dst msg =>
    have opened := tidy.openTo inv guard fair
    unfold PacketNetwork.step
    dsimp only
    rcases send_cases inv s dst msg with blocked | ⟨-, junk, junked⟩ | ⟨d, ready, sent⟩
    · rw [blocked]
      exact opened
    · rw [junked]
      exact opened.dropMessage junk msg
    · rw [sent]
      exact opened.deliver ready
  | allocate c =>
    unfold PacketNetwork.step allocate
    apply Orderly.change tidy c
    · exact fun _ => ⟨rfl, rfl⟩
    · refine .inl fun d mem => ?_
      simp [Guard, (tidy.member d c mem).1] at guard
  | retire c =>
    unfold PacketNetwork.step retire
    apply Orderly.change tidy c
    · exact fun _ => ⟨rfl, rfl⟩
    · exact .inl fair
  | take c count =>
    unfold PacketNetwork.step take
    apply Orderly.change tidy c
    · exact fun _ => ⟨rfl, rfl⟩
    · exact .inr fun _ => ⟨rfl, rfl⟩

end

lemma openTo_others (inv : Invariant cap net) {c : Name} (other : s ≠ c) (dst : Option Name) (d : Name) :
    (s ∈ ((net.openTo c dst).1 d).claims → s ∈ (net d).claims) ∧
      (s ∈ ((net.openTo c dst).1 d).queue → s ∈ (net d).queue) := by
  have claiming := openTo_claiming inv c dst
  generalize net.openTo c dst = result at claiming ⊢
  cases claiming with
  | same src q => simp only [mem_claims, src, q, imp_self, and_self]
  | first e named idle unclaimed src q => grind [mem_claims]
  | queued e cur named idle own distinct src q => grind [mem_claims]

lemma deliver_others (net : Network Name Tok) (s d : Name) (msg : Message Tok) (c e : Name) :
    (c ∈ (net.deliver s d msg e).claims → c ∈ (net e).claims) ∧
      (c ∈ (net.deliver s d msg e).queue → c ∈ (net e).queue) := by
  have sent := deliver_delivery net s d msg
  rw [mem_claims, mem_claims, sent.source, sent.queue]
  split
  · exact ⟨fun mem => .inr (mem.elim List.mem_of_mem_head? List.mem_of_mem_tail), List.mem_of_mem_tail⟩
  · exact ⟨id, id⟩

lemma dropMessage_claims (net : Network Name Tok) (s : Name) (msg : Message Tok) (d : Name) :
    (net.dropMessage s msg d).claims = (net d).claims ∧ (net.dropMessage s msg d).queue = (net d).queue := by
  unfold dropMessage
  split
  · by_cases here : d = s <;> simp [Endpoint.claims, here]
  · exact ⟨rfl, rfl⟩

/-- The sender of a blocked message queues for its target; any other sender without an
open packet has no claim. -/
lemma send_own (tidy : Orderly net) (inv : Invariant cap net) {dst : Option Name}
    {msg : Message Tok} (act : (net s).accepting = true) (fair : Fair net (.send s dst msg))
    (mem : s ∈ ((net.send cap s dst msg).1 d).claims)
    (idle : ((net.send cap s dst msg).1 s).inPacket = false) :
    dst = some d ∧ (net.send cap s dst msg).2 = .blocked := by
  have opened := tidy.openTo inv act fair
  rcases send_cases inv s dst msg with blocked | ⟨pkt, junk, junked⟩ | ⟨e, ready, delivered⟩
  · rw [blocked] at mem idle ⊢
    refine ⟨?_, rfl⟩
    have claiming := openTo_claiming inv s dst
    have dest := (opened.member d s mem).2.2
    generalize net.openTo s dst = result at claiming mem idle dest
    cases claiming with
    | same src q pkt => simp [pkt] at idle
    | first e named idle unclaimed src q pkt => simp_all
    | queued e cur named _ own other src q pkt kept toward =>
      rw [named, ← toward, dest]
  · rw [junked] at mem
    rw [(dropMessage_claims ..).1] at mem
    simp [(opened.member d s mem).2.1] at junk
  · rw [delivered] at mem idle
    have sent := deliver_delivery (net.openTo s dst).1 s e msg
    have dest := ((opened.deliver ready).member d s mem).2.2
    -- A sender that has ended its packet has no destination, any other is still in its packet.
    rw [sent.dest] at dest
    rw [sent.inPacket] at idle
    split at dest
    · simp at dest
    · rename_i goesOn
      rw [if_neg goesOn, ready.packet] at idle
      cases idle

/-- Whoever waits with a claim after a step did so before, or has just been blocked. -/
lemma step_waits (tidy : Orderly net) (inv : Invariant cap net) {lbl : Label Name Tok}
    (guard : Guard net lbl) (fair : Fair net lbl)
    (mem : s ∈ (step cap net lbl d).claims) (idle : (step cap net lbl s).inPacket = false) :
    (s ∈ (net d).claims ∧ (net s).inPacket = false ∧ (s ∈ (step cap net lbl d).queue → s ∈ (net d).queue) ∧
        ∀ dst msg, lbl ≠ .send s dst msg) ∨
      ∃ msg, lbl = .send s (some d) msg ∧ (net.send cap s (some d) msg).2 = .blocked := by
  cases lbl with
  | allocate c =>
    have claimant := tidy.member d s
    unfold step allocate at mem idle ⊢
    grind [mem_claims, Guard, Claimant]
  | retire c =>
    unfold step retire at mem idle ⊢
    grind [mem_claims]
  | take c count =>
    unfold step take at mem idle ⊢
    grind [mem_claims]
  | send c dst msg =>
    by_cases mine : s = c
    · subst mine
      obtain ⟨rfl, blocked⟩ := send_own tidy inv guard fair mem idle
      exact .inr ⟨msg, rfl, blocked⟩
    · left
      have pre := openTo_others inv mine dst d
      have pkt := ((openTo_opening net c dst).others s mine).1
      unfold step at mem idle ⊢
      dsimp only at mem idle ⊢
      rcases send_cases inv c dst msg with blocked | ⟨-, -, junked⟩ | ⟨e, ready, delivered⟩
      · rw [blocked] at mem idle ⊢
        exact ⟨pre.1 mem, pkt.symm.trans idle, pre.2, by simp [Ne.symm mine]⟩
      · rw [junked] at mem idle ⊢
        have same : (net.openTo c dst).1.dropMessage c msg s = (net.openTo c dst).1 s := by
          unfold dropMessage
          split <;> simp [mine]
        obtain ⟨claims, q⟩ := dropMessage_claims (net.openTo c dst).1 c msg d
        dsimp only at mem idle ⊢
        rw [claims] at mem
        rw [same] at idle
        rw [q]
        exact ⟨pre.1 mem, pkt.symm.trans idle, pre.2, by simp [Ne.symm mine]⟩
      · rw [delivered] at mem idle ⊢
        have sent := deliver_delivery (net.openTo c dst).1 c e msg
        have later := deliver_others (net.openTo c dst).1 c e msg s d
        rw [sent.inPacket, if_neg (by simp [mine])] at idle
        exact ⟨pre.1 (later.1 mem), pkt.symm.trans idle, fun queued => pre.2 (later.2 queued),
          by simp [Ne.symm mine]⟩

end PacketNetwork
