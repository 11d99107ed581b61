import Mathlib.Algebra.Order.BigOperators.Group.Finset
import SwitchPaxos.Base.Reach
import SwitchPaxos.Switch.Spreading

/-!
# Fabrics come to rest

As nobody gets a frame more often than it was sent, the frames that came in
anywhere are bounded by what was sent.  So the switches can always deal with
all that is under way, and then every frame has reached its destination.
-/

namespace SwitchPaxos

/-- A list whose items are among some lists, each as often as in one of them,
is at most as long as all of them together. -/
theorem length_le_sum_of_count_le {ι α : Type} [Fintype ι] [DecidableEq α]
    {list : List α} {lists : ι → List α}
    (within : ∀ item ∈ list, ∃ index,
      list.count item ≤ (lists index).count item) :
    list.length ≤ ∑ index, (lists index).length := by
  have bound : (list : Multiset α) ≤ ∑ index, (lists index : Multiset α) := by
    rw [Multiset.le_iff_count]
    intro item
    rw [Multiset.count_sum', Multiset.coe_count]
    by_cases member : item ∈ list
    · obtain ⟨index, le⟩ := within item member
      refine le.trans ?_
      rw [← Multiset.coe_count]
      exact Finset.single_le_sum
        (f := fun index => Multiset.count item (lists index))
        (fun _ _ => Nat.zero_le _) (Finset.mem_univ index)
    · rw [List.count_eq_zero_of_not_mem member]
      exact Nat.zero_le _
  have card := Multiset.card_le_card bound
  rwa [Multiset.card_sum] at card

namespace Fabric

variable {V : Type} [DecidableEq V] [Fintype V] {wiring : Wiring V}
  {fabric : Fabric V}

/-- How many frames came in at a node. -/
def total (wiring : Wiring V) (fabric : Fabric V) (node : V) : ℕ :=
  match wiring.address node with
  | some _ => (fabric.received node).length
  | none => (fabric.switches node).frames.length

/-- How many frames were sent. -/
def traffic (fabric : Fabric V) : ℕ :=
  ∑ host, (fabric.sent host).length

/-- The frames that may still come in at a node, counted twice, and its
upcalls. -/
def work (wiring : Wiring V) (fabric : Fabric V) (node : V) : ℕ :=
  2 * (fabric.traffic - fabric.total wiring node) +
    (fabric.switches node).pending.length

def IsSend : FabricAction V → Prop
  | .send _ _ => True
  | _ => False

theorem Conserves.total_le (conserves : fabric.Conserves wiring) (node : V) :
    fabric.total wiring node ≤ fabric.traffic := by
  unfold total
  cases kind : wiring.address node with
  | some mac =>
      have isHost : wiring.address node ≠ none := by
        rw [kind]
        exact Option.some_ne_none mac
      apply length_le_sum_of_count_le
      intro frame member
      obtain ⟨sender, -, -, le⟩ := conserves.received_le isHost member
      exact ⟨sender, le⟩
  | none =>
      have parsed : ((fabric.switches node).frames.map (·.parsed)).length ≤
          fabric.traffic := by
        apply length_le_sum_of_count_le
        intro frame member
        obtain ⟨packet, among, rfl⟩ := List.mem_map.mp member
        obtain ⟨sender, -, le⟩ := conserves.seen_le_sent kind among
        exact ⟨sender, le⟩
      rwa [List.length_map] at parsed

/-- A step that sends nothing leaves less work if a frame comes in at a node or
an upcall is handled there. -/
theorem Conserves.work_lt (conserves : fabric.Conserves wiring)
    {action : FabricAction V} (enabled : Enabled wiring fabric action)
    (same : (fabric.step wiring action).traffic = fabric.traffic) (node : V)
    (here : 2 * fabric.total wiring node +
        ((fabric.step wiring action).switches node).pending.length <
      2 * (fabric.step wiring action).total wiring node +
        (fabric.switches node).pending.length)
    (elsewhere : ∀ other, other ≠ node →
      (fabric.step wiring action).total wiring other =
          fabric.total wiring other ∧
        (fabric.step wiring action).switches other = fabric.switches other) :
    ∑ other, (fabric.step wiring action).work wiring other <
      ∑ other, fabric.work wiring other := by
  have after := conserves.step enabled
  have less : (fabric.step wiring action).work wiring node <
      fabric.work wiring node := by
    have bound := after.total_le node
    unfold work
    rw [same] at bound ⊢
    omega
  apply Finset.sum_lt_sum
  · intro other _
    by_cases equal : other = node
    · rw [equal]
      exact less.le
    · obtain ⟨total, switch⟩ := elsewhere other equal
      rw [work, total, switch, same, work]
  · exact ⟨node, Finset.mem_univ node, less⟩

omit [Fintype V] in
theorem sent_step {action : FabricAction V} (none : ¬ IsSend action) :
    (fabric.step wiring action).sent = fabric.sent := by
  cases action with
  | send host frame => exact absurd trivial none
  | receive source host frame => rfl
  | switch source switch event => rfl

theorem work_receive (conserves : fabric.Conserves wiring) {source host : V}
    {frame : Frame} (isHost : wiring.address host ≠ none)
    (arrived : frame ∈ fabric.wires source host) :
    ∑ node, (fabric.step wiring (.receive source host frame)).work wiring
      node < ∑ node, fabric.work wiring node := by
  obtain ⟨mac, own⟩ := Option.ne_none_iff_exists'.mp isHost
  refine conserves.work_lt ⟨isHost, arrived⟩ rfl host ?_ ?_
  · simp only [total, own, step, Function.update_self, List.length_append,
      List.length_singleton]
    omega
  · intro other different
    refine ⟨?_, rfl⟩
    simp only [total, step, Function.update_of_ne different]

theorem work_switch (conserves : fabric.Conserves wiring) {source switch : V}
    {event : LearningEvent}
    (enabled : Enabled wiring fabric (.switch source switch event))
    (isSwitch : wiring.address switch = none)
    (less : ((fabric.switches switch).step event).pending.length <
      2 * event.arrival?.toList.length +
        (fabric.switches switch).pending.length) :
    ∑ node, (fabric.step wiring (.switch source switch event)).work wiring
      node < ∑ node, fabric.work wiring node := by
  have frames :=
    (LearningSwitch.frames_step (fabric.switches switch) event).length_eq
  rw [List.length_append] at frames
  refine conserves.work_lt enabled rfl switch ?_ ?_
  · simp only [total, isSwitch, step, Function.update_self]
    omega
  · intro other different
    simp only [total, step, Function.update_of_ne different, and_self]

/-- Unless all is quiet, something that sends nothing can be done. -/
theorem Conserves.exists_step (conserves : fabric.Conserves wiring)
    (busy : ¬ fabric.Quiet wiring) :
    ∃ action, Enabled wiring fabric action ∧ ¬ IsSend action ∧
      ∑ node, (fabric.step wiring action).work wiring node <
        ∑ node, fabric.work wiring node := by
  by_cases idle : ∀ source target, fabric.wires source target = []
  · have waiting : ∃ switch, wiring.address switch = none ∧
        (fabric.switches switch).pending ≠ [] := by
      by_contra none
      refine busy ⟨idle, fun switch isSwitch => ?_⟩
      by_contra some
      exact none ⟨switch, isSwitch, some⟩
    obtain ⟨switch, isSwitch, some⟩ := waiting
    obtain ⟨packet, pending, queue⟩ := List.exists_cons_of_ne_nil some
    have enabled : Enabled wiring fabric (.switch switch switch .handle) :=
      isSwitch
    refine ⟨_, enabled, id, ?_⟩
    apply work_switch conserves enabled isSwitch
    simp [LearningSwitch.step, LearningSwitch.run, queue,
      LearningEvent.arrival?]
  · obtain ⟨source, links⟩ := not_forall.mp idle
    obtain ⟨target, some⟩ := not_forall.mp links
    obtain ⟨frame, others, wire⟩ := List.exists_cons_of_ne_nil some
    have arrived : frame ∈ fabric.wires source target := by
      rw [wire]
      exact List.mem_cons_self
    by_cases isSwitch : wiring.address target = none
    · let packet := frame.upcall (wiring.port target source)
      have comesIn : fabric.ComesIn wiring source target packet :=
        ⟨rfl, arrived⟩
      by_cases handles : (fabric.switches target).table.Handles frame
      · obtain ⟨flow, member, matched⟩ := handles
        have enabled : Enabled wiring fabric
            (.switch source target (.matched packet flow)) :=
          ⟨isSwitch, comesIn, member, matched⟩
        refine ⟨_, enabled, id, ?_⟩
        apply work_switch conserves enabled isSwitch
        simp [LearningSwitch.step, LearningEvent.arrival?]
      · have enabled : Enabled wiring fabric
            (.switch source target (.upcall packet)) :=
          ⟨isSwitch, comesIn, handles⟩
        refine ⟨_, enabled, id, ?_⟩
        apply work_switch conserves enabled isSwitch
        simp [LearningSwitch.step, LearningEvent.arrival?]
        omega
    · exact ⟨.receive source target frame, ⟨isSwitch, arrived⟩, id,
        work_receive conserves isSwitch arrived⟩

/-- Whatever happened so far, the switches can deal with all that is under way
without any further frame being sent, and then every host has received the
frames for it as often as they were sent. -/
theorem comes_to_rest (wiring : Wiring V)
    (addFlows learnIpAddresses clearFlowsOnStartup : V → Bool)
    {actions : List (FabricAction V)}
    (run : (system wiring).Run
      (started addFlows learnIpAddresses clearFlowsOnStartup) actions) :
    let reached := (system wiring).after
      (started addFlows learnIpAddresses clearFlowsOnStartup) actions
    ∃ later, (system wiring).Run reached later ∧
      (∀ action ∈ later, ¬ IsSend action) ∧
      let final := (system wiring).after reached later
      final.Quiet wiring ∧ ∀ sender host frame,
        wiring.address sender = some frame.src → sender ≠ host →
          wiring.address host ≠ none →
            (wiring.address host = some frame.dst ∨
              wiring.owner frame.dst = none) →
                (final.received host).count frame =
                  (reached.sent sender).count frame := by
  intro reached
  have conserves : reached.Conserves wiring := conserves_of_run run
  have settled : ∃ final, (system wiring).Leads
      (fun action => ¬ IsSend action) reached final ∧ final.Quiet wiring :=
    System.Leads.of_decreasing (fun fabric => ∑ node, fabric.work wiring node)
      (fun _ _ conserves enabled => Conserves.step conserves enabled)
      (fun _ conserves busy => Conserves.exists_step conserves busy) conserves
  obtain ⟨final, led, quiet⟩ := settled
  let Kept := fun state : Fabric V =>
    state.Conserves wiring ∧ state.sent = reached.sent
  have preserved : ∀ state action, Kept state →
      Enabled wiring state action → ¬ IsSend action →
        Kept (state.step wiring action) := by
    rintro state action ⟨conserves, same⟩ enabled none
    exact ⟨conserves.step enabled, (sent_step none).trans same⟩
  have kept : Kept final := led.invariant preserved ⟨conserves, rfl⟩
  obtain ⟨later, further, may, rfl⟩ := led
  refine ⟨later, further, may, quiet, ?_⟩
  intro sender host frame own different isHost destination
  rw [← kept.2]
  exact kept.1.received_eq quiet own different isHost destination

/-- A frame that was only sent reaches its destination. -/
theorem comes_to_rest_flood :
    let frame : Frame := ⟨100, 2, 0x0800, [7]⟩
    let sent := (started (fun _ => true) (fun _ => false) fun _ =>
      false).step SimpleTopology.smallWiring
        (.send ⟨.client 0, by decide⟩ frame)
    ∃ later, (system SimpleTopology.smallWiring).Run sent later ∧
      (((system SimpleTopology.smallWiring).after sent later).received
        ⟨.host 1, by decide⟩).count frame = 1 := by
  intro frame sent
  have run : (system SimpleTopology.smallWiring).Run
      (started (fun _ => true) (fun _ => false) fun _ => false)
      [.send ⟨.client 0, by decide⟩ frame] := by
    decide +kernel
  obtain ⟨later, further, -, -, received⟩ :=
    comes_to_rest SimpleTopology.smallWiring _ _ _ run
  refine ⟨later, further, ?_⟩
  have count := received ⟨.client 0, by decide⟩ ⟨.host 1, by decide⟩ frame
    (by decide +kernel) (by decide) (by decide +kernel)
    (.inl (by decide +kernel))
  refine count.trans ?_
  decide +kernel

end Fabric

end SwitchPaxos
