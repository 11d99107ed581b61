import SwitchPaxos.Switch.Fabric

/-!
# What goes over a link

Frames come in at a switch from the side that their sender is on, since they
never turn back and the links have no loop.  So all that the switches learn is
right.  And over each link, what was output at one end is what came in at the
other and what is still on the link.
-/

namespace SwitchPaxos

theorem LearningSwitch.forwarded_step (switch : LearningSwitch)
    (event : LearningEvent) :
    (switch.step event).forwarded = switch.forwarded ++
      (switch.step event).forwarded.drop switch.forwarded.length := by
  have grows : ∃ new, (switch.step event).forwarded =
      switch.forwarded ++ new := by
    cases event with
    | matched packet flow => exact ⟨_, rfl⟩
    | upcall packet => exact ⟨[], (List.append_nil _).symm⟩
    | handle =>
        rcases queue : switch.pending with _ | ⟨packet, pending⟩
        · rw [step, queue]
          exact ⟨[], (List.append_nil _).symm⟩
        · rw [step, queue]
          exact ⟨_, rfl⟩
    | expire flow => exact ⟨[], (List.append_nil _).symm⟩
    | connectionDown reaches =>
        cases reaches <;> exact ⟨[], (List.append_nil _).symm⟩
  obtain ⟨new, split⟩ := grows
  rw [split, List.drop_left]

theorem Wiring.eq_of_mem_copiesTo {V : Type} {wiring : Wiring V}
    {home : EthAddr → Port} {switch neighbour : V}
    {entry : PacketIn × List (Frame × Port)} {frame : Frame}
    (delivered : LearningSwitch.Delivered home entry.1 entry.2)
    (copied : frame ∈ wiring.copiesTo switch neighbour entry) :
    frame = entry.1.parsed := by
  obtain ⟨output, member, some⟩ := List.mem_filterMap.mp copied
  have same : output.1 = entry.1.parsed := by
    rcases delivered with one | one <;> rw [one] at member <;>
      rw [List.mem_singleton.mp member]
  split at some
  · rw [← Option.some.inj some, same]
  · cases some

namespace Fabric

variable {V : Type} [DecidableEq V]

/-- What was output on a link, at its source. -/
def transmitted (wiring : Wiring V) (source target : V) (fabric : Fabric V) :
    List Frame :=
  match wiring.address source with
  | some _ => fabric.sent source
  | none => (fabric.switches source).forwarded.flatMap
      (wiring.copiesTo source target)

/-- What came in from a link, at its target. -/
def accepted (wiring : Wiring V) (source target : V) (fabric : Fabric V) :
    List Frame :=
  match wiring.address target with
  | some _ => fabric.received target
  | none => ((fabric.switches target).frames.filter fun packet =>
      packet.port = wiring.port target source).map (·.parsed)

/-- Every switch knows the way, every frame comes from where its sender is, and
no link loses or doubles a frame. -/
structure Conserves (wiring : Wiring V) (fabric : Fabric V) : Prop where
  placed : ∀ switch, wiring.address switch = none →
    (fabric.switches switch).Placed (wiring.home switch)
  known : ∀ switch, ∀ packet ∈ (fabric.switches switch).frames,
    wiring.owner packet.parsed.src ≠ none
  origin : ∀ source target frame, frame ∈ fabric.wires source target →
    wiring.Adjacent source target ∧ ∃ host,
      wiring.owner frame.src = some host ∧
        wiring.next target host = some source
  links : ∀ source target, wiring.Adjacent source target →
    (fabric.transmitted wiring source target).Perm
      (fabric.wires source target ++ fabric.accepted wiring source target)

variable {wiring : Wiring V} {fabric : Fabric V} {action : FabricAction V}

theorem mem_of_mem_take {source target first second : V} {frame other : Frame}
    {wires : Channels V Frame}
    (member : other ∈ take source target frame wires first second) :
    other ∈ wires first second := by
  unfold take at member
  split at member
  · exact List.mem_of_mem_erase member
  · exact member

theorem mem_of_mem_taken {source switch first second : V}
    {event : LearningEvent} {frame : Frame}
    (member : frame ∈ fabric.taken source switch event first second) :
    frame ∈ fabric.wires first second := by
  cases arrival : event.arrival? with
  | none =>
      rw [taken, arrival] at member
      exact member
  | some packet =>
      rw [taken, arrival] at member
      exact mem_of_mem_take member

/-- What a link carries is what it still carries and what was taken from it.
-/
theorem wires_perm_taken {source switch : V} {event : LearningEvent}
    (present : ∀ packet, event.arrival? = some packet →
      packet.parsed ∈ fabric.wires source switch) (first second : V) :
    (fabric.wires first second).Perm
      (fabric.taken source switch event first second ++
        if first = source ∧ second = switch then
          event.arrival?.toList.map (·.parsed) else []) := by
  unfold taken
  cases arrival : event.arrival? with
  | none => simp
  | some packet =>
      simp only [take]
      split
      · next here =>
          obtain ⟨rfl, rfl⟩ := here
          have front := List.perm_cons_erase (present packet arrival)
          exact front.trans (List.perm_append_singleton _ _).symm
      · simp

/-- An event at a switch is possible, and a frame comes in where its sender
is. -/
theorem Conserves.arrives (conserves : fabric.Conserves wiring)
    {source switch : V} {event : LearningEvent}
    (enabled : Enabled wiring fabric (.switch source switch event)) :
    wiring.address switch = none ∧
      (∀ packet, event.arrival? = some packet →
        fabric.ComesIn wiring source switch packet) ∧
      (fabric.switches switch).Arrives (wiring.home switch) event := by
  have right : ∀ packet, fabric.ComesIn wiring source switch packet →
      packet.port = wiring.home switch packet.parsed.src := by
    intro packet comesIn
    obtain ⟨-, host, owner, next⟩ :=
      conserves.origin _ _ _ comesIn.2
    rw [Wiring.home_of_next owner next]
    exact comesIn.1
  cases event with
  | matched packet flow =>
      obtain ⟨isSwitch, comesIn, member, matched⟩ := enabled
      refine ⟨isSwitch, ?_, right packet comesIn, member, matched⟩
      rintro other ⟨⟩
      exact comesIn
  | upcall packet =>
      obtain ⟨isSwitch, comesIn, -⟩ := enabled
      refine ⟨isSwitch, ?_, right packet comesIn⟩
      rintro other ⟨⟩
      exact comesIn
  | handle => exact ⟨enabled, by rintro packet ⟨⟩, trivial⟩
  | expire flow => exact ⟨enabled, by rintro packet ⟨⟩, trivial⟩
  | connectionDown reaches => exact ⟨enabled, by rintro packet ⟨⟩, trivial⟩

/-- The entries that handling an event adds. -/
def newest (switch : V) (event : LearningEvent) (fabric : Fabric V) :
    List (PacketIn × List (Frame × Port)) :=
  ((fabric.switches switch).step event).forwarded.drop
    (fabric.switches switch).forwarded.length

theorem transmitted_switch {source switch first second : V}
    {event : LearningEvent} (isSwitch : wiring.address switch = none) :
    (fabric.step wiring (.switch source switch event)).transmitted wiring
        first second =
      fabric.transmitted wiring first second ++
        if first = switch then
          (fabric.newest switch event).flatMap (wiring.copiesTo switch second)
        else [] := by
  by_cases same : first = switch
  · subst same
    simp only [transmitted, isSwitch, step, Function.update_self, if_true]
    rw [LearningSwitch.forwarded_step, List.flatMap_append]
    rfl
  · simp only [transmitted, step, Function.update_of_ne same, if_neg same,
      List.append_nil]

theorem accepted_switch (fabric : Fabric V)
    {source switch first second : V} {event : LearningEvent}
    (isSwitch : wiring.address switch = none)
    (adjacent : wiring.Adjacent first second)
    (link : ∀ packet, event.arrival? = some packet →
      packet.port = wiring.port switch source ∧
        wiring.Adjacent source switch) :
    ((fabric.step wiring (.switch source switch event)).accepted wiring
        first second).Perm
      (fabric.accepted wiring first second ++
        if first = source ∧ second = switch then
          event.arrival?.toList.map (·.parsed) else []) := by
  by_cases same : second = switch
  · subst same
    simp only [accepted, isSwitch, step, Function.update_self, and_true]
    have frames := LearningSwitch.frames_step (fabric.switches second) event
    have counted := (frames.filter fun packet =>
      packet.port = wiring.port second first).map (·.parsed)
    rw [List.filter_append, List.map_append] at counted
    refine counted.trans (List.Perm.append_left _ (.of_eq ?_))
    cases arrival : event.arrival? with
    | none => simp
    | some packet =>
        obtain ⟨port, sourceAdjacent⟩ := link packet arrival
        by_cases here : first = source
        · simp [port, here]
        · have other : wiring.port second source ≠
              wiring.port second first := by
            intro equal
            exact here (wiring.ports sourceAdjacent.symm adjacent.symm
              equal).symm
          simp [port, here, other]
  · simp [accepted, step, same]

theorem wires_switch {source switch first second : V} {event : LearningEvent}
    (adjacent : wiring.Adjacent first second) :
    (fabric.step wiring (.switch source switch event)).wires first second =
      fabric.taken source switch event first second ++
        if first = switch then
          (fabric.newest switch event).flatMap (wiring.copiesTo switch second)
        else [] := by
  simp only [step, Wiring.transmit]
  by_cases same : first = switch
  · subst same
    rw [if_pos ⟨rfl, adjacent⟩, if_pos rfl]
    rfl
  · rw [if_neg (fun both => same both.1), if_neg same, List.append_nil]

/-- A copy that a neighbour gets does not go back to where the frame came
from. -/
theorem copiesTo_origin {switch neighbour : V}
    (adjacent : wiring.Adjacent switch neighbour)
    {entry : PacketIn × List (Frame × Port)} {frame : Frame} {host : V}
    (owner : wiring.owner frame.src = some host)
    (different : switch ≠ host)
    (here : entry.1.port = wiring.home switch frame.src)
    (copied : frame ∈ wiring.copiesTo switch neighbour entry) :
    wiring.next neighbour host = some switch := by
  have away : wiring.port switch neighbour ≠ entry.1.port := by
    obtain ⟨output, -, some⟩ := List.mem_filterMap.mp copied
    split at some
    · next leaves => exact fun same => leaves.2 (congrArg Option.some same)
    · cases some
  obtain ⟨w, next⟩ := wiring.exists_next different
  rw [here, Wiring.home_of_next owner next] at away
  have other : wiring.next switch host ≠ some neighbour := by
    intro same
    cases next.symm.trans same
    exact away rfl
  by_contra stays
  exact other ((RootedTree.next_flip adjacent).mpr stays)

namespace Conserves

theorem newest_delivered {switch : V} {event : LearningEvent}
    (placed : ((fabric.switches switch).step event).Placed
      (wiring.home switch))
    {entry : PacketIn × List (Frame × Port)}
    (new : entry ∈ fabric.newest switch event) :
    entry.1 ∈ ((fabric.switches switch).step event).frames ∧
      entry.1.port = wiring.home switch entry.1.parsed.src ∧
      LearningSwitch.Delivered (wiring.home switch) entry.1 entry.2 := by
  have member := List.mem_of_mem_drop new
  have among : entry.1 ∈ ((fabric.switches switch).step event).frames :=
    List.mem_append_left _ (List.mem_map_of_mem member)
  exact ⟨among, placed.frames _ among, placed.forwarded _ member⟩

theorem send {host : V} {frame : Frame} (conserves : fabric.Conserves wiring)
    (own : wiring.address host = some frame.src) :
    (fabric.step wiring (.send host frame)).Conserves wiring := by
  have isHost : wiring.address host ≠ none := by
    rw [own]
    exact Option.some_ne_none _
  refine ⟨conserves.placed, conserves.known, ?_, ?_⟩
  · intro source target other member
    simp only [step] at member
    split at member
    · next here =>
        obtain ⟨rfl, up⟩ := here
        rcases List.mem_append.mp member with earlier | new
        · exact conserves.origin _ _ _ earlier
        · rw [List.mem_singleton.mp new]
          refine ⟨.inl up, source, wiring.address_iff.mp own, ?_⟩
          exact RootedTree.next_of_adjacent (.inr up)
    · exact conserves.origin _ _ _ member
  · intro source target adjacent
    have before := conserves.links source target adjacent
    by_cases same : source = host
    · subst same
      have up := Wiring.parent_of_host isHost adjacent
      simp only [transmitted, own] at before
      simp only [transmitted, own, step, Function.update_self, up, and_self,
        if_true]
      have added := before.append_right [frame]
      refine added.trans ?_
      rw [List.append_assoc, List.append_assoc]
      exact List.perm_append_comm.append_left _
    · simp only [step, if_neg fun both : source = host ∧ _ => same both.1]
      refine .trans (.of_eq ?_) before
      simp only [transmitted, Function.update_of_ne same]

theorem receive {source host : V} {frame : Frame}
    (conserves : fabric.Conserves wiring) (isHost : wiring.address host ≠ none)
    (arrived : frame ∈ fabric.wires source host) :
    (fabric.step wiring (.receive source host frame)).Conserves wiring := by
  refine ⟨conserves.placed, conserves.known, ?_, ?_⟩
  · intro first second other member
    exact conserves.origin _ _ _ (mem_of_mem_take member)
  · intro first second adjacent
    have before := conserves.links first second adjacent
    by_cases same : second = host
    · subst same
      have above := Wiring.parent_of_host isHost adjacent.symm
      have link := Wiring.parent_of_host isHost
        (conserves.origin _ _ _ arrived).1.symm
      cases above.symm.trans link
      obtain ⟨mac, own⟩ := Option.ne_none_iff_exists'.mp isHost
      simp only [accepted, own] at before ⊢
      simp only [step, take, and_self, if_true, Function.update_self]
      have split := List.perm_cons_erase arrived
      refine before.trans ((split.append_right _).trans ?_)
      rw [← List.append_assoc]
      exact (List.perm_append_singleton _ _).symm
    · simp only [step, take, if_neg fun both : _ ∧ second = host => same both.2]
      refine before.trans (.of_eq ?_)
      simp only [accepted, Function.update_of_ne same]

theorem switch {source switch : V} {event : LearningEvent}
    (conserves : fabric.Conserves wiring)
    (enabled : Enabled wiring fabric (.switch source switch event)) :
    (fabric.step wiring (.switch source switch event)).Conserves wiring := by
  obtain ⟨isSwitch, comesIn, arrives⟩ := conserves.arrives enabled
  have placed := (conserves.placed switch isSwitch).step arrives
  have known : ∀ packet ∈ ((fabric.switches switch).step event).frames,
      wiring.owner packet.parsed.src ≠ none := by
    intro packet member
    have among :=
      (LearningSwitch.frames_step (fabric.switches switch) event).mem_iff.mp
        member
    rcases List.mem_append.mp among with earlier | new
    · exact conserves.known switch packet earlier
    · obtain ⟨-, host, owner, -⟩ := conserves.origin _ _ _
        (comesIn packet (Option.mem_toList.mp new)).2
      rw [owner]
      exact Option.some_ne_none _
  constructor
  · intro other otherSwitch
    by_cases same : other = switch
    · subst same
      simp only [step, Function.update_self]
      exact placed
    · simp only [step, Function.update_of_ne same]
      exact conserves.placed other otherSwitch
  · intro other
    by_cases same : other = switch
    · subst same
      simp only [step, Function.update_self]
      exact known
    · simp only [step, Function.update_of_ne same]
      exact conserves.known other
  · intro first second frame member
    simp only [step, Wiring.transmit] at member
    split at member
    · next here =>
        obtain ⟨rfl, adjacent⟩ := here
        rcases List.mem_append.mp member with earlier | new
        · exact conserves.origin _ _ _ (mem_of_mem_taken earlier)
        · obtain ⟨entry, newest, copied⟩ := List.mem_flatMap.mp new
          obtain ⟨among, here, delivered⟩ := newest_delivered placed newest
          have same := Wiring.eq_of_mem_copiesTo delivered copied
          subst same
          obtain ⟨host, owner⟩ :=
            Option.ne_none_iff_exists'.mp (known _ among)
          refine ⟨adjacent, host, owner, ?_⟩
          refine copiesTo_origin adjacent owner ?_ here copied
          rintro rfl
          rw [wiring.address_iff.mpr owner] at isSwitch
          cases isSwitch
    · exact conserves.origin _ _ _ (mem_of_mem_taken member)
  · intro first second adjacent
    have link : ∀ packet, event.arrival? = some packet →
        packet.port = wiring.port switch source ∧
          wiring.Adjacent source switch := by
      intro packet arrival
      have here := comesIn packet arrival
      exact ⟨here.1, (conserves.origin _ _ _ here.2).1⟩
    have present : ∀ packet, event.arrival? = some packet →
        packet.parsed ∈ fabric.wires source switch :=
      fun packet arrival => (comesIn packet arrival).2
    have before := conserves.links first second adjacent
    have took := wires_perm_taken present first second
    have accepted := accepted_switch fabric isSwitch adjacent link
    rw [transmitted_switch isSwitch, wires_switch adjacent]
    rw [List.perm_iff_count] at before took accepted ⊢
    intro frame
    have before := before frame
    have took := took frame
    have accepted := accepted frame
    simp only [List.count_append] at before took accepted ⊢
    omega

theorem step (conserves : fabric.Conserves wiring)
    (enabled : Enabled wiring fabric action) :
    (fabric.step wiring action).Conserves wiring := by
  cases action with
  | send host frame => exact conserves.send enabled
  | receive source host frame => exact conserves.receive enabled.1 enabled.2
  | switch source switch event => exact conserves.switch enabled

end Conserves

theorem started_conserves
    (addFlows learnIpAddresses clearFlowsOnStartup : V → Bool) :
    (started addFlows learnIpAddresses clearFlowsOnStartup).Conserves
      wiring := by
  have frames : ∀ switch, ((started addFlows learnIpAddresses
      clearFlowsOnStartup).switches switch).frames = [] := fun _ => rfl
  constructor
  · intro switch isSwitch
    apply LearningSwitch.started_placed
    exact Wiring.home_of_nobody wiring.nobody
  · intro switch packet member
    rw [frames] at member
    cases member
  · intro source target frame member
    cases member
  · intro source target adjacent
    refine .of_eq ?_
    unfold transmitted accepted
    cases wiring.address source <;> cases wiring.address target <;> rfl

end Fabric

end SwitchPaxos
