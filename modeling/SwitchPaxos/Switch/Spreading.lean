import SwitchPaxos.Base.Run
import SwitchPaxos.Switch.Conservation
import SwitchPaxos.Switch.Topology

/-!
# Frames spread without storms

Floods end, as a frame crosses a link in one direction only, away from its
sender.  So nobody gets a frame more often than it was sent.  And on the way
to its destination no switch holds a frame back, so that the destination gets
it exactly as often, whatever the switches have learned or forgotten.
-/

namespace SwitchPaxos

namespace Wiring

variable {V : Type} {wiring : Wiring V} {home : EthAddr → Port}
  {switch neighbour : V}
  {entry : PacketIn × List (Frame × Port)}

theorem count_copiesTo_le (wiring : Wiring V) (switch neighbour : V)
    (delivered : LearningSwitch.Delivered home entry.1 entry.2)
    (frame : Frame) :
    (wiring.copiesTo switch neighbour entry).count frame ≤
      [entry.1.parsed].count frame := by
  have one : entry.2.length = 1 := by
    rcases delivered with one | one <;> rw [one, List.length_singleton]
  by_cases same : frame = entry.1.parsed
  · subst same
    rw [List.count_singleton_self, ← one]
    exact List.count_le_length.trans (List.length_filterMap_le _ _)
  · rw [List.count_eq_zero_of_not_mem]
    · exact Nat.zero_le _
    · exact fun copied => same (eq_of_mem_copiesTo delivered copied)

theorem copiesTo_back (back : wiring.port switch neighbour = entry.1.port) :
    wiring.copiesTo switch neighbour entry = [] := by
  apply List.filterMap_eq_nil_iff.mpr
  intro output member
  exact if_neg fun leaves => leaves.2 (congrArg some back)

theorem copiesTo_on
    (delivered : LearningSwitch.Delivered home entry.1 entry.2)
    (on : home entry.1.parsed.dst = wiring.port switch neighbour ∨
      home entry.1.parsed.dst = OFPP_ALL)
    (away : wiring.port switch neighbour ≠ entry.1.port) :
    wiring.copiesTo switch neighbour entry = [entry.1.parsed] := by
  have away := (Option.some_injective Port).ne away
  rcases delivered with one | one
  · simp only [copiesTo, one, List.filterMap_cons, List.filterMap_nil]
    rw [if_pos ⟨on.symm, away⟩]
  · simp only [copiesTo, one, List.filterMap_cons, List.filterMap_nil]
    rw [if_pos ⟨.inl rfl, away⟩]

end Wiring

namespace Fabric

variable {V : Type} [DecidableEq V] {wiring : Wiring V} {fabric : Fabric V}
  {switch source neighbour host : V} {frame : Frame}

/-- How often a frame came in at a switch. -/
def seen (switch : V) (frame : Frame) (fabric : Fabric V) : ℕ :=
  ((fabric.switches switch).frames.map (·.parsed)).count frame

/-- Nothing is on a link, and no upcall waits. -/
structure Quiet (wiring : Wiring V) (fabric : Fabric V) : Prop where
  wires : ∀ source target, fabric.wires source target = []
  pending : ∀ switch, wiring.address switch = none →
    (fabric.switches switch).pending = []

omit [DecidableEq V] in
/-- The frames that came in were output or wait for the controller. -/
theorem seen_eq : fabric.seen switch frame =
    ((fabric.switches switch).forwarded.flatMap
      fun entry => [entry.1.parsed]).count frame +
        ((fabric.switches switch).pending.map (·.parsed)).count frame := by
  rw [seen, LearningSwitch.frames, List.map_append, List.map_map,
    List.count_append, ← List.map_eq_flatMap]
  rfl

namespace Conserves

theorem seen_add (conserves : fabric.Conserves wiring)
    (isSwitch : wiring.address switch = none)
    (owner : wiring.owner frame.src = some host)
    (next : wiring.next switch host = some source) :
    fabric.seen switch frame + (fabric.wires source switch).count frame =
      (fabric.transmitted wiring source switch).count frame := by
  have link := (conserves.links source switch
    (RootedTree.next_adjacent next).symm).count_eq frame
  have all : (fabric.accepted wiring source switch).count frame =
      fabric.seen switch frame := by
    simp only [accepted, isSwitch, seen, List.count_eq_countP,
      List.countP_map, List.countP_filter]
    apply List.countP_congr
    intro packet member
    have here := (conserves.placed switch isSwitch).frames packet member
    simp only [Function.comp_apply, beq_iff_eq, Bool.and_eq_true,
      decide_eq_true_eq, and_iff_left_iff_imp]
    rintro rfl
    rw [here, Wiring.home_of_next owner next]
  rw [List.count_append, all] at link
  omega

/-- A neighbour gets each frame at most as often as the switch did. -/
theorem transmitted_le (conserves : fabric.Conserves wiring)
    (isSwitch : wiring.address switch = none) (neighbour : V)
    (frame : Frame) :
    (fabric.transmitted wiring switch neighbour).count frame ≤
      fabric.seen switch frame := by
  simp only [transmitted, isSwitch, seen_eq]
  rw [List.count_flatMap, List.count_flatMap]
  refine Nat.le_add_right_of_le (List.sum_le_sum ?_)
  intro entry member
  exact Wiring.count_copiesTo_le wiring switch neighbour
    ((conserves.placed switch isSwitch).forwarded entry member) frame

theorem transmitted_back (conserves : fabric.Conserves wiring)
    (isSwitch : wiring.address switch = none)
    (owner : wiring.owner frame.src = some host)
    (next : wiring.next switch host = some neighbour) :
    frame ∉ fabric.transmitted wiring switch neighbour := by
  simp only [transmitted, isSwitch]
  intro member
  obtain ⟨entry, forwarded, copied⟩ := List.mem_flatMap.mp member
  have placed := conserves.placed switch isSwitch
  have same :=
    Wiring.eq_of_mem_copiesTo (placed.forwarded entry forwarded) copied
  have here := placed.frames entry.1
    (List.mem_append_left _ (List.mem_map_of_mem forwarded))
  rw [← same, Wiring.home_of_next owner next] at here
  rw [Wiring.copiesTo_back here.symm] at copied
  cases copied

theorem owner_of_transmitted (conserves : fabric.Conserves wiring)
    (isSwitch : wiring.address switch = none)
    (output : frame ∈ fabric.transmitted wiring switch neighbour) :
    ∃ sender, wiring.owner frame.src = some sender := by
  simp only [transmitted, isSwitch] at output
  obtain ⟨entry, forwarded, copied⟩ := List.mem_flatMap.mp output
  have placed := conserves.placed switch isSwitch
  rw [Wiring.eq_of_mem_copiesTo (placed.forwarded entry forwarded) copied]
  apply Option.ne_none_iff_exists'.mp
  apply conserves.known switch
  exact List.mem_append_left _ (List.mem_map_of_mem forwarded)

/-- Without upcalls that wait, the next node on the way to the destination gets
a frame as often as the switch did. -/
theorem transmitted_eq (conserves : fabric.Conserves wiring)
    (isSwitch : wiring.address switch = none)
    (none : (fabric.switches switch).pending = [])
    (owner : wiring.owner frame.src = some host)
    (away : wiring.next switch host ≠ some neighbour)
    (adjacent : wiring.Adjacent switch neighbour)
    (on : wiring.home switch frame.dst = wiring.port switch neighbour ∨
      wiring.home switch frame.dst = OFPP_ALL) :
    (fabric.transmitted wiring switch neighbour).count frame =
      fabric.seen switch frame := by
  have placed := conserves.placed switch isSwitch
  simp only [transmitted, isSwitch, seen_eq, none, List.map_nil,
    List.count_nil, Nat.add_zero]
  rw [List.count_flatMap, List.count_flatMap]
  congr 1
  apply List.map_congr_left
  intro entry forwarded
  have delivered := placed.forwarded entry forwarded
  by_cases same : frame = entry.1.parsed
  · subst same
    have here := placed.frames entry.1
      (List.mem_append_left _ (List.mem_map_of_mem forwarded))
    have different : switch ≠ host := by
      rintro rfl
      rw [wiring.address_iff.mpr owner] at isSwitch
      cases isSwitch
    obtain ⟨w, next⟩ := wiring.exists_next different
    rw [Wiring.home_of_next owner next] at here
    simp only [Function.comp_apply]
    rw [Wiring.copiesTo_on delivered on]
    intro back
    rw [here] at back
    rw [wiring.ports adjacent (RootedTree.next_adjacent next) back] at away
    exact away next
  · have bound := Wiring.count_copiesTo_le wiring switch neighbour delivered
      frame
    have zero : [entry.1.parsed].count frame = 0 :=
      List.count_eq_zero_of_not_mem fun member =>
        same (List.mem_singleton.mp member)
    simp only [Function.comp_apply]
    omega

theorem received_add (conserves : fabric.Conserves wiring)
    (isHost : wiring.address host ≠ none)
    (up : wiring.parent host = some switch) (frame : Frame) :
    (fabric.received host).count frame +
        (fabric.wires switch host).count frame =
      (fabric.transmitted wiring switch host).count frame := by
  have link := (conserves.links switch host (.inr up)).count_eq frame
  obtain ⟨mac, own⟩ := Option.ne_none_iff_exists'.mp isHost
  simp only [List.count_append, accepted, own] at link
  omega

theorem eq_or_switch {u w : V} (next : wiring.next u host = some w) :
    w = host ∨ wiring.address w = none := by
  by_cases isHost : wiring.address w = none
  · exact .inr isHost
  · left
    apply RootedTree.eq_of_next_childless _ next
    intro below up
    exact isHost (wiring.childless up)

omit [DecidableEq V] in
theorem transmitted_host {target : V} {mac : EthAddr}
    (own : wiring.address host = some mac) :
    fabric.transmitted wiring host target = fabric.sent host := by
  rw [transmitted, own]

/-- No switch gets a frame more often than it was sent. -/
theorem seen_le (conserves : fabric.Conserves wiring)
    (owner : wiring.owner frame.src = some host) (switch : V) :
    wiring.address switch = none →
      fabric.seen switch frame ≤ (fabric.sent host).count frame := by
  have own := wiring.address_iff.mpr owner
  refine wiring.towards_induction (motive := fun u =>
    wiring.address u = none → fabric.seen u frame ≤
      (fabric.sent host).count frame) host ?goal ?back switch
  case goal =>
    intro isSwitch
    rw [own] at isSwitch
    cases isSwitch
  case back =>
    intro u w next induction isSwitch
    have link := conserves.seen_add isSwitch owner next
    rcases eq_or_switch next with rfl | between
    · rw [transmitted_host own] at link
      omega
    · have before := induction between
      have output := conserves.transmitted_le between u frame
      omega

theorem seen_le_sent (conserves : fabric.Conserves wiring)
    (isSwitch : wiring.address switch = none) {packet : PacketIn}
    (member : packet ∈ (fabric.switches switch).frames) :
    ∃ sender, wiring.address sender = some packet.parsed.src ∧
      fabric.seen switch packet.parsed ≤
        (fabric.sent sender).count packet.parsed := by
  obtain ⟨sender, owner⟩ :=
    Option.ne_none_iff_exists'.mp (conserves.known switch packet member)
  exact ⟨sender, wiring.address_iff.mpr owner,
    conserves.seen_le owner switch isSwitch⟩

theorem received_le (conserves : fabric.Conserves wiring)
    (isHost : wiring.address host ≠ none)
    (member : frame ∈ fabric.received host) :
    ∃ sender, sender ≠ host ∧ wiring.address sender = some frame.src ∧
      (fabric.received host).count frame ≤
        (fabric.sent sender).count frame := by
  obtain ⟨switch, up⟩ := Option.ne_none_iff_exists'.mp (wiring.hung isHost)
  have isSwitch := wiring.childless up
  have link := conserves.received_add isHost up frame
  have some : 0 < (fabric.received host).count frame :=
    List.count_pos_iff.mpr member
  have output : frame ∈ fabric.transmitted wiring switch host := by
    apply List.count_pos_iff.mp
    omega
  obtain ⟨sender, owner⟩ := conserves.owner_of_transmitted isSwitch output
  refine ⟨sender, ?_, wiring.address_iff.mpr owner, ?_⟩
  · rintro rfl
    exact conserves.transmitted_back isSwitch owner
      (RootedTree.next_of_adjacent (.inr up)) output
  · have bound := conserves.seen_le owner switch isSwitch
    have copies := conserves.transmitted_le isSwitch host frame
    omega

/-- Once all is quiet, each switch on the way to the destination got a frame as
often as it was sent. -/
theorem seen_eq_sent (conserves : fabric.Conserves wiring)
    (quiet : fabric.Quiet wiring) (owner : wiring.owner frame.src = some host)
    {goal : V} (destination : wiring.owner frame.dst = some goal ∨
      wiring.owner frame.dst = none) (switch : V) :
    wiring.next switch host ≠ wiring.next switch goal →
      wiring.address switch = none →
        fabric.seen switch frame = (fabric.sent host).count frame := by
  have own := wiring.address_iff.mpr owner
  refine wiring.towards_induction (motive := fun u =>
    wiring.next u host ≠ wiring.next u goal → wiring.address u = none →
      fabric.seen u frame = (fabric.sent host).count frame) host ?goal ?back
      switch
  case goal =>
    intro way isSwitch
    rw [own] at isSwitch
    cases isSwitch
  case back =>
    intro u w next induction way isSwitch
    have adjacent := RootedTree.next_adjacent next
    have link := conserves.seen_add isSwitch owner next
    rw [quiet.wires, List.count_nil, Nat.add_zero] at link
    rw [link]
    rcases eq_or_switch next with rfl | between
    · rw [transmitted_host own]
    · have away := (RootedTree.next_flip adjacent).mp next
      have forth : wiring.next w goal = some u := by
        apply (RootedTree.next_flip adjacent.symm).mpr
        rw [← next]
        exact way.symm
      rw [conserves.transmitted_eq between (quiet.pending w between) owner away
        adjacent.symm ?_]
      · apply induction _ between
        rw [forth]
        exact away
      · rcases destination with there | nobody
        · exact .inl (Wiring.home_of_next there forth)
        · exact .inr (Wiring.home_of_nobody nobody)

theorem received_eq (conserves : fabric.Conserves wiring)
    (quiet : fabric.Quiet wiring) {sender : V}
    (own : wiring.address sender = some frame.src) (different : sender ≠ host)
    (isHost : wiring.address host ≠ none)
    (destination : wiring.address host = some frame.dst ∨
      wiring.owner frame.dst = none) :
    (fabric.received host).count frame = (fabric.sent sender).count frame := by
  have owner := wiring.address_iff.mp own
  obtain ⟨switch, up⟩ := Option.ne_none_iff_exists'.mp (wiring.hung isHost)
  have isSwitch := wiring.childless up
  have forth : wiring.next switch host = some host :=
    RootedTree.next_of_adjacent (.inr up)
  have away : wiring.next switch sender ≠ some host := by
    intro next
    rcases eq_or_switch next with same | none
    · exact different same.symm
    · exact isHost none
  have link := conserves.received_add isHost up frame
  rw [quiet.wires, List.count_nil, Nat.add_zero] at link
  have there := destination.imp_left wiring.address_iff.mp
  rw [link, conserves.transmitted_eq isSwitch (quiet.pending switch isSwitch)
    owner away (.inr up) ?_]
  · apply conserves.seen_eq_sent quiet owner there switch _ isSwitch
    rw [forth]
    exact away
  · rcases there with there | nobody
    · exact .inl (Wiring.home_of_next there forth)
    · exact .inr (Wiring.home_of_nobody nobody)

end Conserves

section Runs

variable {actions : List (FabricAction V)}
  {addFlows learnIpAddresses clearFlowsOnStartup : V → Bool}

theorem conserves_of_run
    (run : (system wiring).Run
      (started addFlows learnIpAddresses clearFlowsOnStartup) actions) :
    ((system wiring).after
      (started addFlows learnIpAddresses clearFlowsOnStartup)
        actions).Conserves wiring :=
  run.invariant (fun _ _ conserves enabled => conserves.step enabled)
    (started_conserves addFlows learnIpAddresses clearFlowsOnStartup)

end Runs

/-- A client's frame for a host behind the other switch: both switches flood
it, and another host gets it as well. -/
def flood : List (FabricAction {node // node ∈ SimpleTopology.small.linked}) :=
  let cl0 := ⟨.client 0, by decide⟩
  let s0 := ⟨.switch 0, by decide⟩
  let s1 := ⟨.switch 1, by decide⟩
  let frame : Frame := ⟨100, 2, 0x0800, [7]⟩
  [.send cl0 frame, .switch cl0 s0 (.upcall (frame.upcall 3)),
    .switch s0 s0 .handle, .receive s0 ⟨.host 0, by decide⟩ frame,
    .switch s0 s1 (.upcall (frame.upcall 4)), .switch s1 s1 .handle,
    .receive s1 ⟨.host 1, by decide⟩ frame]

theorem flood_run : (system SimpleTopology.smallWiring).Run
    (started (fun _ => true) (fun _ => false) fun _ => false) flood := by
  decide +kernel

/-- The fabric after the flood. -/
def flooded : Fabric {node // node ∈ SimpleTopology.small.linked} :=
  (system SimpleTopology.smallWiring).after
    (started (fun _ => true) (fun _ => false) fun _ => false) flood

/-- Hosts receive what another host sent, and nobody gets a frame more often
than it was sent: no flood goes on for ever. -/
theorem at_most_once (wiring : Wiring V)
    (addFlows learnIpAddresses clearFlowsOnStartup : V → Bool)
    {actions : List (FabricAction V)}
    (run : (system wiring).Run
      (started addFlows learnIpAddresses clearFlowsOnStartup) actions) :
    let fabric := (system wiring).after
      (started addFlows learnIpAddresses clearFlowsOnStartup) actions
    (∀ switch, wiring.address switch = none →
      ∀ packet ∈ (fabric.switches switch).frames, ∃ sender,
        wiring.address sender = some packet.parsed.src ∧
          fabric.seen switch packet.parsed ≤
            (fabric.sent sender).count packet.parsed) ∧
      ∀ host, wiring.address host ≠ none →
        ∀ frame ∈ fabric.received host, ∃ sender, sender ≠ host ∧
          wiring.address sender = some frame.src ∧
            (fabric.received host).count frame ≤
              (fabric.sent sender).count frame := by
  intro fabric
  have conserves : fabric.Conserves wiring := conserves_of_run run
  exact ⟨fun _ isSwitch _ => conserves.seen_le_sent isSwitch,
    fun _ isHost _ => conserves.received_le isHost⟩

/-- The other host gets the frame once. -/
theorem at_most_once_flood :
    let frame : Frame := ⟨100, 2, 0x0800, [7]⟩
    let h0 := ⟨.host 0, by decide⟩
    flooded.received h0 = [frame] ∧ ∃ sender, sender ≠ h0 ∧
      SimpleTopology.smallWiring.address sender = some 100 ∧
        (flooded.received h0).count frame ≤
          (flooded.sent sender).count frame := by
  intro frame h0
  have received : flooded.received h0 = [frame] := by decide +kernel
  have member : frame ∈ flooded.received h0 := by
    rw [received]
    exact List.mem_cons_self
  have bound := (at_most_once SimpleTopology.smallWiring _ _ _ flood_run).2 h0
    (by decide +kernel) frame member
  exact ⟨received, bound⟩

/-- Once all is quiet, a host received each frame that another host sent to
it, or to nobody's address, exactly as often as it was sent. -/
theorem exactly_once (wiring : Wiring V)
    (addFlows learnIpAddresses clearFlowsOnStartup : V → Bool)
    {actions : List (FabricAction V)}
    (run : (system wiring).Run
      (started addFlows learnIpAddresses clearFlowsOnStartup) actions) :
    let fabric := (system wiring).after
      (started addFlows learnIpAddresses clearFlowsOnStartup) actions
    fabric.Quiet wiring → ∀ sender host frame,
      wiring.address sender = some frame.src → sender ≠ host →
        wiring.address host ≠ none →
          (wiring.address host = some frame.dst ∨
            wiring.owner frame.dst = none) →
              (fabric.received host).count frame =
                (fabric.sent sender).count frame := by
  intro fabric quiet sender host frame own different isHost destination
  have conserves : fabric.Conserves wiring := conserves_of_run run
  exact conserves.received_eq quiet own different isHost destination

/-- All is quiet after the flood, and the frame arrived once. -/
theorem exactly_once_flood :
    let frame : Frame := ⟨100, 2, 0x0800, [7]⟩
    (flooded.received ⟨.host 1, by decide⟩).count frame =
      (flooded.sent ⟨.client 0, by decide⟩).count frame := by
  intro frame
  have quiet : flooded.Quiet SimpleTopology.smallWiring := by
    constructor <;> decide +kernel
  exact exactly_once SimpleTopology.smallWiring _ _ _ flood_run quiet _ _ frame
    (by decide +kernel) (by decide) (by decide +kernel)
    (.inl (by decide +kernel))

end Fabric

end SwitchPaxos
