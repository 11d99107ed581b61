import Mathlib.Data.Fintype.Sets
import SwitchPaxos.Switch.Fabric

/-!
# Topologies

The nodes and links that `topology.py` adds.  No topology has a loop: their
links are those of a tree whose leaves are the hosts.  Clients without a link
are not part of it.
-/

namespace SwitchPaxos

/-- Hosts and switches, by the numbers in their names. -/
inductive NetNode where
  | client (n : ℕ)
  | host (n : ℕ)
  | switch (n : ℕ)
  | wan
deriving DecidableEq

/-- What a topology adds. -/
structure Topo where
  hosts : List NetNode
  switches : List NetNode
  links : List (NetNode × NetNode)

namespace Topo

def new : Topo := { hosts := [], switches := [], links := [] }

def addHost (node : NetNode) (self : Topo) : Topo :=
  { self with hosts := self.hosts ++ [node] }

def addSwitch (node : NetNode) (self : Topo) : Topo :=
  { self with switches := self.switches ++ [node] }

def addLink (first second : NetNode) (self : Topo) : Topo :=
  { self with links := self.links ++ [(first, second)] }

/-- Adds a host and links it to a switch. -/
def hang (switch node : NetNode) (self : Topo) : Topo :=
  (self.addHost node).addLink node switch

/-- The nodes that have a link. -/
def linked (self : Topo) : List NetNode :=
  self.links.flatMap fun link => [link.1, link.2]

end Topo

namespace SimpleTopology

/-- The hosts of one switch, with the number that the next host gets. -/
def addHosts (hostsPerSwitch n : ℕ) (state : Topo × ℕ) : Topo × ℕ :=
  (List.range hostsPerSwitch).foldl
    (fun (self, hostno) _ =>
      (self.hang (.switch n) (.host hostno), hostno + 1))
    state

def addSwitches (countSwitches hostsPerSwitch : ℕ) (state : Topo × ℕ) :
    Topo × ℕ :=
  (List.range countSwitches).foldl
    (fun (self, hostno) n =>
      addHosts hostsPerSwitch n (self.addSwitch (.switch n), hostno))
    state

/-- What `__init__` adds; nothing, if an assertion fails. -/
def build (countSwitches hostsPerSwitch countClients : ℕ) : Option Topo :=
  if countSwitches > 0 ∧ countClients > 0 ∧ hostsPerSwitch > 0 then
    let clients := (List.range countClients).foldl
      (fun self n => self.addHost (.client n)) Topo.new
    let switches := (addSwitches countSwitches hostsPerSwitch (clients, 0)).1
    some ((List.range countSwitches).tail.foldl
      (fun self n => self.addLink (.switch 0) (.switch n))
      (switches.addLink (.client 0) (.switch 0)))
  else none

end SimpleTopology

/-- A switch with hosts, which are added in the order of their numbers. -/
def Topo.addHosts (switch : ℕ) (numbers : List ℕ) (self : Topo) : Topo :=
  numbers.foldl (fun self n => self.hang (.switch switch) (.host n))
    (self.addSwitch (.switch switch))

def BaselineTopology : Topo :=
  (((((Topo.new.addHosts 1 [1, 2, 3]).addHosts 2 [4, 5, 6]).addHosts 3
    [7, 8, 9]).addLink (.switch 1) (.switch 2)).addLink (.switch 2)
      (.switch 3))

/-- The hosts are added backwards, and only one switch is linked to the WAN. -/
def PaxosTopology : Topo :=
  let switches :=
    ((Topo.new.addHosts 1 [3, 2, 1]).addHosts 2 [6, 5, 4]).addHosts 3 [9, 8, 7]
  let clients := [3, 2, 1].foldl (fun self n => self.hang .wan (.client n))
    (switches.addSwitch .wan)
  ((clients.addLink (.switch 1) (.switch 2)).addLink (.switch 2)
    (.switch 3)).addLink .wan (.switch 1)

/-- The links are those of a tree, each of them once, and hosts are leaves. -/
structure Topo.Spans (topo : Topo) (root : NetNode)
    (parent : NetNode → Option NetNode) (depth : NetNode → ℕ) : Prop where
  once : topo.links.Pairwise fun first second =>
    first ≠ second ∧ first ≠ second.swap
  up : ∀ link ∈ topo.links,
    parent link.1 = some link.2 ∨ parent link.2 = some link.1
  joined : ∀ v ∈ topo.linked, ∀ u ∈ parent v,
    (v, u) ∈ topo.links ∨ (u, v) ∈ topo.links
  deeper : ∀ v ∈ topo.linked, ∀ u ∈ parent v, depth u < depth v
  top : root ∈ topo.linked
  rooted : ∀ v ∈ topo.linked, parent v = none → v = root
  root_switch : root ∉ topo.hosts
  leaves : ∀ v ∈ topo.linked, ∀ u ∈ parent v, u ∉ topo.hosts

namespace Topo

variable {topo : Topo} {root : NetNode} {parent : NetNode → Option NetNode}
  {depth : NetNode → ℕ}

/-- Some link joins the nodes. -/
def Joined (topo : Topo) (u v : NetNode) : Prop :=
  (u, v) ∈ topo.links ∨ (v, u) ∈ topo.links

instance (topo : Topo) (u v : NetNode) : Decidable (topo.Joined u v) :=
  inferInstanceAs (Decidable (_ ∨ _))

theorem Joined.linked {u v : NetNode} (joined : topo.Joined u v) :
    v ∈ topo.linked := by
  rcases joined with link | link <;>
    exact List.mem_flatMap.mpr ⟨_, link, by simp⟩

/-- The nodes with a link, as a tree. -/
def tree (topo : Topo) (spans : topo.Spans root parent depth) :
    RootedTree {node // node ∈ topo.linked} where
  root := ⟨root, spans.top⟩
  parent v := (parent v.1).pmap Subtype.mk fun u up =>
    Joined.linked (spans.joined v.1 v.2 u up)
  depth v := depth v.1
  deeper := by
    intro v u up
    obtain ⟨w, linked, above, rfl⟩ := Option.pmap_eq_some_iff.mp up
    exact spans.deeper v.1 v.2 w above
  rooted := by
    intro v up
    exact Subtype.ext (spans.rooted v.1 v.2 (Option.pmap_eq_none_iff.mp up))

theorem parent_tree (spans : topo.Spans root parent depth)
    {u v : {node // node ∈ topo.linked}} :
    (topo.tree spans).parent u = some v ↔ parent u.1 = some v.1 := by
  constructor
  · intro up
    obtain ⟨w, linked, above, rfl⟩ := Option.pmap_eq_some_iff.mp up
    exact above
  · intro up
    exact Option.pmap_eq_some_iff.mpr ⟨v.1, v.2, up, rfl⟩

theorem adjacent_tree (spans : topo.Spans root parent depth)
    {u v : {node // node ∈ topo.linked}} :
    (topo.tree spans).Adjacent u v ↔ topo.Joined u.1 v.1 := by
  unfold RootedTree.Adjacent
  rw [parent_tree, parent_tree]
  constructor
  · rintro (up | up)
    · exact spans.joined u.1 u.2 v.1 up
    · exact (spans.joined v.1 v.2 u.1 up).symm
  · rintro (link | link)
    · exact spans.up _ link
    · exact (spans.up _ link).symm

/-- The addresses and port numbers that Mininet gives the nodes. -/
structure Addressed (topo : Topo) (mac : NetNode → EthAddr)
    (port : NetNode → NetNode → Port) : Prop where
  broadcast : ∀ host ∈ topo.hosts, mac host ≠ ETHER_BROADCAST
  unique : ∀ host ∈ topo.hosts, ∀ other ∈ topo.hosts,
    mac host = mac other → host = other
  ports : ∀ u ∈ topo.linked, ∀ v ∈ topo.linked, ∀ w ∈ topo.linked,
    topo.Joined u v → topo.Joined u w → port u v = port u w → v = w

variable {mac : NetNode → EthAddr} {port : NetNode → NetNode → Port}

/-- The fabric that Mininet builds. -/
def wiring (topo : Topo) (spans : topo.Spans root parent depth)
    (addressed : topo.Addressed mac port) :
    Wiring {node // node ∈ topo.linked} where
  toRootedTree := topo.tree spans
  address v := if v.1 ∈ topo.hosts then some (mac v.1) else none
  owner address := topo.linked.attach.find? fun v =>
    v.1 ∈ topo.hosts ∧ mac v.1 = address
  port u v := port u.1 v.1
  address_iff := by
    intro v address
    rw [Option.ite_none_right_eq_some, Option.some.injEq]
    constructor
    · rintro ⟨host, rfl⟩
      have found : (topo.linked.attach.find? fun w =>
          w.1 ∈ topo.hosts ∧ mac w.1 = mac v.1).isSome := by
        apply List.find?_isSome.mpr
        exact ⟨v, List.mem_attach _ v, by simp [host]⟩
      obtain ⟨w, found⟩ := Option.isSome_iff_exists.mp found
      have right := List.find?_some found
      rw [decide_eq_true_eq] at right
      rw [found, Subtype.ext (addressed.unique _ right.1 _ host right.2)]
    · intro found
      have right := List.find?_some found
      rwa [decide_eq_true_eq] at right
  nobody := by
    apply List.find?_eq_none.mpr
    intro v _ right
    rw [decide_eq_true_eq] at right
    exact addressed.broadcast v.1 right.1 right.2
  hung := by
    intro v host up
    apply host
    rw [(topo.tree spans).rooted up]
    exact if_neg spans.root_switch
  childless := by
    intro v w up
    exact if_neg (spans.leaves w.1 w.2 v.1 ((parent_tree spans).mp up))
  ports := by
    intro u v w first second same
    apply Subtype.ext
    exact addressed.ports _ u.2 _ v.2 _ w.2 ((adjacent_tree spans).mp first)
      ((adjacent_tree spans).mp second) same

end Topo

namespace SimpleTopology

variable {countSwitches hostsPerSwitch countClients : ℕ}

theorem addHosts_eq (n : ℕ) (self : Topo) (hostno : ℕ) :
    addHosts hostsPerSwitch n (self, hostno) =
      ({ self with
        hosts := self.hosts ++ (List.range hostsPerSwitch).map
          fun k => .host (hostno + k)
        links := self.links ++ (List.range hostsPerSwitch).map
          fun k => (.host (hostno + k), .switch n) },
        hostno + hostsPerSwitch) := by
  unfold addHosts
  induction hostsPerSwitch with
  | zero => simp
  | succ hostsPerSwitch induction =>
      rw [List.range_succ, List.foldl_append, induction]
      simp [Topo.hang, Topo.addHost, Topo.addLink, Nat.add_assoc]

/-- The running number of a host says which switch it is linked to. -/
theorem addSwitches_eq (self : Topo) (some : 0 < hostsPerSwitch) :
    addSwitches countSwitches hostsPerSwitch (self, 0) =
      ({ hosts := self.hosts ++
           (List.range (countSwitches * hostsPerSwitch)).map .host
         switches := self.switches ++
           (List.range countSwitches).map .switch
         links := self.links ++
           (List.range (countSwitches * hostsPerSwitch)).map
             fun n => (.host n, .switch (n / hostsPerSwitch)) },
        countSwitches * hostsPerSwitch) := by
  unfold addSwitches
  induction countSwitches with
  | zero => simp
  | succ n induction =>
      have last : (List.range hostsPerSwitch).map (fun k =>
            (NetNode.host (n * hostsPerSwitch + k), NetNode.switch n)) =
          ((List.range hostsPerSwitch).map (n * hostsPerSwitch + ·)).map
            fun n => (.host n, .switch (n / hostsPerSwitch)) := by
        rw [List.map_map]
        apply List.map_congr_left
        intro k member
        have quotient : (n * hostsPerSwitch + k) / hostsPerSwitch = n := by
          rw [Nat.mul_comm, Nat.mul_add_div some,
            Nat.div_eq_of_lt (List.mem_range.mp member), Nat.add_zero]
        simp only [Function.comp_apply, quotient]
      rw [List.range_succ, List.foldl_append, induction, List.foldl_cons,
        List.foldl_nil]
      dsimp only
      rw [addHosts_eq, last, Nat.succ_mul, List.range_add]
      simp [Topo.addSwitch, Function.comp_def]

theorem clients_eq :
    (List.range countClients).foldl (fun self n => self.addHost (.client n))
      Topo.new =
        { Topo.new with hosts := (List.range countClients).map .client } := by
  induction countClients with
  | zero => rfl
  | succ n induction =>
      rw [List.range_succ, List.foldl_append, induction]
      simp [Topo.addHost]

theorem addLinks_eq (self : Topo) (numbers : List ℕ) :
    numbers.foldl (fun self n => self.addLink (.switch 0) (.switch n)) self =
      { self with
        links := self.links ++
          numbers.map fun n => (.switch 0, .switch n) } := by
  induction numbers generalizing self with
  | nil => simp
  | cons n numbers induction =>
      rw [List.foldl_cons, induction]
      simp [Topo.addLink]

/-- The topology in closed form. -/
theorem build_eq_some {topo : Topo} :
    build countSwitches hostsPerSwitch countClients = some topo ↔
      (countSwitches > 0 ∧ countClients > 0 ∧ hostsPerSwitch > 0) ∧
        topo.hosts = (List.range countClients).map .client ++
          (List.range (countSwitches * hostsPerSwitch)).map .host ∧
        topo.switches = (List.range countSwitches).map .switch ∧
        topo.links =
          (List.range (countSwitches * hostsPerSwitch)).map
              (fun n => (.host n, .switch (n / hostsPerSwitch))) ++
            (.client 0, .switch 0) ::
              (List.range countSwitches).tail.map
                fun n => (.switch 0, .switch n) := by
  unfold build
  split
  · next asserted =>
      dsimp only
      rw [addLinks_eq, clients_eq, addSwitches_eq _ asserted.2.2]
      obtain ⟨hosts, switches, links⟩ := topo
      simp only [Option.some.injEq, Topo.mk.injEq, Topo.addLink, Topo.new,
        List.nil_append, List.append_assoc, List.singleton_append]
      constructor
      · rintro ⟨rfl, rfl, rfl⟩
        exact ⟨asserted, rfl, rfl, rfl⟩
      · rintro ⟨-, rfl, rfl, rfl⟩
        exact ⟨rfl, rfl, rfl⟩
  · next failed =>
      constructor
      · intro impossible
        cases impossible
      · intro built
        exact absurd built.1 failed

/-- A host's switch follows from its number. -/
def parent (hostsPerSwitch : ℕ) : NetNode → Option NetNode
  | .client _ => some (.switch 0)
  | .host n => some (.switch (n / hostsPerSwitch))
  | .switch 0 => none
  | .switch _ => some (.switch 0)
  | .wan => none

def depth : NetNode → ℕ
  | .switch 0 => 0
  | .switch _ => 1
  | _ => 2

theorem mem_links {topo : Topo} {link : NetNode × NetNode} (built :
    build countSwitches hostsPerSwitch countClients = some topo) :
    link ∈ topo.links ↔
      (∃ n < countSwitches * hostsPerSwitch,
        link = (.host n, .switch (n / hostsPerSwitch))) ∨
      link = (.client 0, .switch 0) ∨
      ∃ n < countSwitches, 0 < n ∧ link = (.switch 0, .switch n) := by
  obtain ⟨-, -, -, links⟩ := build_eq_some.mp built
  rw [links, List.mem_append, List.mem_cons, List.tail_range]
  simp only [List.mem_map, List.mem_range, List.mem_range'_1]
  refine or_congr ?_ (or_congr_right ?_)
  · exact exists_congr fun n => and_congr_right fun _ => eq_comm
  · constructor
    · rintro ⟨n, ⟨positive, bound⟩, rfl⟩
      exact ⟨n, by omega, positive, rfl⟩
    · rintro ⟨n, bound, positive, rfl⟩
      exact ⟨n, ⟨positive, by omega⟩, rfl⟩

theorem mem_linked {topo : Topo} {node : NetNode} (built :
    build countSwitches hostsPerSwitch countClients = some topo)
    (linked : node ∈ topo.linked) :
    (∃ n < countSwitches * hostsPerSwitch, node = .host n) ∨
      node = .client 0 ∨ ∃ n < countSwitches, node = .switch n := by
  have some := (build_eq_some.mp built).1.1
  obtain ⟨link, member, side⟩ := List.mem_flatMap.mp linked
  simp only [List.mem_cons, List.not_mem_nil, or_false] at side
  rcases (mem_links built).mp member with
    ⟨n, bound, rfl⟩ | rfl | ⟨n, bound, -, rfl⟩ <;>
    rcases side with rfl | rfl
  · exact .inl ⟨n, bound, rfl⟩
  · exact .inr (.inr ⟨_, Nat.div_lt_of_lt_mul (by rwa [Nat.mul_comm]), rfl⟩)
  · exact .inr (.inl rfl)
  · exact .inr (.inr ⟨0, some, rfl⟩)
  · exact .inr (.inr ⟨0, some, rfl⟩)
  · exact .inr (.inr ⟨n, bound, rfl⟩)

theorem links_once {topo : Topo} (built :
    build countSwitches hostsPerSwitch countClients = some topo) :
    topo.links.Pairwise fun first second =>
      first ≠ second ∧ first ≠ second.swap := by
  obtain ⟨-, -, -, links⟩ := build_eq_some.mp built
  rw [links, List.tail_range, List.pairwise_append, List.pairwise_cons,
    List.pairwise_map, List.pairwise_map]
  refine ⟨?_, ⟨?_, ?_⟩, ?_⟩
  · refine List.pairwise_lt_range.imp fun less => ?_
    simp [less.ne]
  · intro link member
    obtain ⟨n, -, rfl⟩ := List.mem_map.mp member
    simp
  · have ascending : (List.range' 1 (countSwitches - 1)).Pairwise (· < ·) :=
      List.pairwise_lt_range'
    refine ascending.imp_of_mem fun positive _ less => ?_
    rw [List.mem_range'_1] at positive
    simp only [ne_eq, Prod.mk.injEq, NetNode.switch.injEq, Prod.swap_prod_mk,
      true_and]
    omega
  · intro link member other later
    obtain ⟨n, -, rfl⟩ := List.mem_map.mp member
    rcases List.mem_cons.mp later with rfl | later
    · simp
    · obtain ⟨m, -, rfl⟩ := List.mem_map.mp later
      simp

theorem spans {topo : Topo} (built :
    build countSwitches hostsPerSwitch countClients = some topo) :
    topo.Spans (.switch 0) (parent hostsPerSwitch) depth := by
  obtain ⟨-, hosts, -⟩ := build_eq_some.mp built
  have not_host : ∀ n, .switch n ∉ topo.hosts := by
    intro n
    simp [hosts]
  constructor
  · exact links_once built
  · intro link member
    rcases (mem_links built).mp member with
      ⟨n, -, rfl⟩ | rfl | ⟨n, -, positive, rfl⟩
    · exact .inl rfl
    · exact .inl rfl
    · obtain ⟨n, rfl⟩ := Nat.exists_eq_succ_of_ne_zero positive.ne'
      exact .inr rfl
  · intro node linked up parent
    rw [mem_links built, mem_links built]
    rcases mem_linked built linked with
      ⟨n, bound, rfl⟩ | rfl | ⟨_ | n, bound, rfl⟩ <;> cases parent
    · exact .inl (.inl ⟨n, bound, rfl⟩)
    · exact .inl (.inr (.inl rfl))
    · exact .inr (.inr (.inr ⟨n + 1, bound, Nat.succ_pos n, rfl⟩))
  · intro node linked up parent
    rcases mem_linked built linked with
      ⟨n, bound, rfl⟩ | rfl | ⟨_ | n, bound, rfl⟩ <;> cases parent
    · cases n / hostsPerSwitch with
      | zero => exact Nat.two_pos
      | succ n => exact Nat.one_lt_two
    · exact Nat.two_pos
    · exact Nat.one_pos
  · apply List.mem_flatMap.mpr
    refine ⟨(.client 0, .switch 0), (mem_links built).mpr (.inr (.inl rfl)), ?_⟩
    simp
  · intro node linked parent
    rcases mem_linked built linked with
      ⟨n, bound, rfl⟩ | rfl | ⟨_ | n, bound, rfl⟩ <;> cases parent
    rfl
  · exact not_host 0
  · intro node linked up parent
    rcases mem_linked built linked with
      ⟨n, bound, rfl⟩ | rfl | ⟨_ | n, bound, rfl⟩ <;> cases parent <;>
      exact not_host _

end SimpleTopology

def BaselineTopology.parent : NetNode → Option NetNode
  | .host n => some (.switch (1 + (n - 1) / 3))
  | .switch 2 => some (.switch 1)
  | .switch 3 => some (.switch 2)
  | _ => none

def PaxosTopology.parent : NetNode → Option NetNode
  | .host n => some (.switch (1 + (n - 1) / 3))
  | .client _ => some .wan
  | .switch 1 => some .wan
  | .switch 2 => some (.switch 1)
  | .switch 3 => some (.switch 2)
  | _ => none

def Topo.depth : NetNode → ℕ
  | .wan => 0
  | .switch n => n + 1
  | .host _ => 5
  | .client _ => 5

theorem BaselineTopology.spans :
    BaselineTopology.Spans (.switch 1) BaselineTopology.parent Topo.depth := by
  constructor <;> decide

theorem PaxosTopology.spans :
    PaxosTopology.Spans .wan PaxosTopology.parent Topo.depth := by
  constructor <;> decide

/-- The topologies that the program can start. -/
inductive Topo.Built : Topo → Prop where
  | simple {countSwitches hostsPerSwitch countClients : ℕ} {topo : Topo}
      (built : SimpleTopology.build countSwitches hostsPerSwitch countClients =
        some topo) : Built topo
  | baseline : Built BaselineTopology
  | paxos : Built PaxosTopology

theorem Topo.Built.spans {topo : Topo} (built : topo.Built) :
    ∃ root parent depth, topo.Spans root parent depth := by
  cases built with
  | simple built => exact ⟨_, _, _, SimpleTopology.spans built⟩
  | baseline => exact ⟨_, _, _, BaselineTopology.spans⟩
  | paxos => exact ⟨_, _, _, PaxosTopology.spans⟩

/-- No topology that the program can start has a loop or a double link,
whatever its parameters are, so that its switches and hosts form a fabric. -/
theorem Topo.built_without_loops {topo : Topo} (built : topo.Built)
    {mac : NetNode → EthAddr} {port : NetNode → NetNode → Port}
    (addressed : topo.Addressed mac port) :
    (topo.links.Pairwise fun first second =>
      first ≠ second ∧ first ≠ second.swap) ∧
      ∃ wiring : Wiring {node // node ∈ topo.linked},
        (∀ u v, wiring.Adjacent u v ↔ topo.Joined u.1 v.1) ∧
        (∀ u v, wiring.port u v = port u.1 v.1) ∧
        ∀ v, wiring.address v =
          if v.1 ∈ topo.hosts then some (mac v.1) else none := by
  obtain ⟨root, parent, depth, spans⟩ := built.spans
  exact ⟨spans.once, topo.wiring spans addressed,
    fun _ _ => adjacent_tree spans, fun _ _ => rfl, fun _ => rfl⟩

namespace SimpleTopology

/-- Two switches with a host each, and a client. -/
def small : Topo := (build 2 1 1).getD Topo.new

theorem small_built : build 2 1 1 = some small := rfl

def smallMac : NetNode → EthAddr
  | .client n => Fin.ofNat _ (100 + n)
  | .host n => Fin.ofNat _ (1 + n)
  | _ => 0

/-- The links are numbered in the order in which they were added. -/
def smallPort (u v : NetNode) : Port :=
  1 + small.links.findIdx fun link => link = (u, v) ∨ link = (v, u)

theorem small_addressed : small.Addressed smallMac smallPort := by
  constructor <;> decide

def smallWiring : Wiring {node // node ∈ small.linked} :=
  small.wiring (spans small_built) small_addressed

end SimpleTopology

/-- In the smallest topology with two switches these are linked to each other.
-/
theorem Topo.built_without_loops_small :
    ∃ wiring : Wiring {node // node ∈ SimpleTopology.small.linked},
      wiring.Adjacent ⟨.switch 0, by decide⟩ ⟨.switch 1, by decide⟩ := by
  obtain ⟨-, wiring, adjacent, -⟩ := Topo.built_without_loops
    (.simple SimpleTopology.small_built) SimpleTopology.small_addressed
  exact ⟨wiring, (adjacent _ _).mpr (by decide)⟩

end SwitchPaxos
