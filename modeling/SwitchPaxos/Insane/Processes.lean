import SwitchPaxos.Base.Simulation
import SwitchPaxos.Insane.OneLeader
import SwitchPaxos.Insane.Transport

/-!
# Processes

Each node has a process, which takes one datagram after the other until it is
told to stop or something goes wrong.  The main process waits until all of them
answer before it sends the value to the leader, and in the end it tells them to
stop.  Datagrams get lost, come twice or late, and others may send some.
-/

namespace SwitchPaxos.Insane

open Python (Value)

variable {V : Type}

structure Process (V : Type) where
  node : Node V
  -- Flag used to control the loop
  stop : Option Bool

inductive Output (V : Type) where
  | did (effect : Effect V)
  | pingReply (src dst : Address) (cookie : Value Empty)

namespace Process

variable [LinearOrder V]

/-- What was called for, unless it raises. -/
def perform (process : Process V) (sender : Address) :
    Call V → Option (Process V × List (Output V))
  | .handle message =>
      let outcome := Node.receive sender message process.node
      some ({ process with node := outcome.state }, outcome.effects.map .did)
  | .ping cookie =>
      some (process, [.pingReply process.node.address sender cookie])
  | .shutdown => some ({ process with stop := some true }, [])
  | .raises => none
  | .pingReply _ | .unknown => some (process, [])
  -- Nothing comes to this, see `Typed`.
  | .confused => some (process, [])

/-- A turn of `loop`, which ends when something is raised. -/
def turn (process : Process V) (sender : Address) (call : Call V) :
    Process V × List (Output V) :=
  (process.perform sender call).getD ({ process with stop := some true }, [])

end Process

/-- What the processes run with. -/
structure Setup (V : Type) where
  pickle : Pickle
  format : Format V
  table : Dict ℕ Address
  -- The address of the main process
  omega : Address
  -- A cookie for each node
  cookie : ℕ → Bytes
  value : Option V

/-- Where the main process is. -/
inductive Main where
  -- Ping the nodes that are left, and then send the value
  | asking (left : List ℕ)
  -- Wait for the reply of the first of them
  | listening (id : ℕ) (left : List ℕ)
  -- Wait until all processes are done
  | waiting
  | done
deriving DecidableEq

/-- The node whose reply the main process waits for. -/
def Main.awaits : Main → Option ℕ
  | .listening id _ => some id
  | _ => none

/-- What a process did. -/
inductive Entry (V : Type) where
  | out (id : ℕ) (output : Output V)
  | ping (dst : Address) (cookie : Bytes)
  | trustValue (dst : Address) (c : ℕ) (value : Option V)
  | shutdown (dst : Address)

structure World (V : Type) where
  processes : ℕ → Process V
  main : Main
  log : List (Entry V)

/-- The main process goes on, and sends something. -/
def World.goOn (main : Main) (entries : List (Entry V)) (world : World V) :
    World V :=
  { world with main, log := world.log ++ entries }

/-- The node that is sent the value. -/
def leader : ℕ := 1

structure Datagram where
  src : Address
  dst : Address
  data : Bytes
deriving DecidableEq

inductive Move where
  | enter (id : ℕ)
  | arrive (id : ℕ) (src : Address) (data : Bytes)
  | interrupt (id : ℕ)
  | proceed
  | hear (src : Address) (data : Bytes)
  | timeout
  | quit
deriving DecidableEq

/-- The arguments of a handler are rounds and values.  Others it would compare
and store as well, and the model of a node has no place for them. -/
def Call.Typed : Call V → Prop
  | .confused => False
  | _ => True

instance : (call : Call V) → Decidable call.Typed
  | .confused => inferInstanceAs (Decidable False)
  | .handle _ => inferInstanceAs (Decidable True)
  | .ping _ => inferInstanceAs (Decidable True)
  | .pingReply _ => inferInstanceAs (Decidable True)
  | .shutdown => inferInstanceAs (Decidable True)
  | .unknown => inferInstanceAs (Decidable True)
  | .raises => inferInstanceAs (Decidable True)

/-- A node takes the datagram neither for a message of the protocol nor for a
ping. -/
def Call.Strange : Call V → Prop
  | .pingReply _ | .shutdown | .unknown | .raises => True
  | _ => False

instance : (call : Call V) → Decidable call.Strange
  | .handle _ => inferInstanceAs (Decidable False)
  | .confused => inferInstanceAs (Decidable False)
  | .ping _ => inferInstanceAs (Decidable False)
  | .pingReply _ => inferInstanceAs (Decidable True)
  | .shutdown => inferInstanceAs (Decidable True)
  | .unknown => inferInstanceAs (Decidable True)
  | .raises => inferInstanceAs (Decidable True)

namespace Setup

variable (setup : Setup V)

def datagram (src dst : Address) (command : Command)
    (args : List (Value Empty)) : Datagram :=
  ⟨src, dst, setup.pickle.dumps (command.tuple args)⟩

/-- The datagram that somebody sent. -/
def sent? : Entry V → Option Datagram
  | .out _ (.did (.sent packet)) =>
      some (setup.datagram packet.src packet.dst packet.message.command
        (packet.message.args setup.format))
  | .out _ (.did (.accepted _ _)) => none
  | .out _ (.pingReply src dst cookie) =>
      some (setup.datagram src dst .pingReply [cookie])
  | .ping dst cookie =>
      some (setup.datagram setup.omega dst .ping [.str cookie])
  | .trustValue dst c value =>
      some (setup.datagram setup.omega dst .trustValue
        ((Message.trustValue c value).args setup.format))
  | .shutdown dst => some (setup.datagram setup.omega dst .shutdown [])

/-- All datagrams that were ever sent. -/
def wire (world : World V) : List Datagram :=
  world.log.filterMap setup.sent?

def read (data : Bytes) : Call V := Insane.read setup.pickle setup.format data

/-- Whether a datagram is the awaited reply, if it can be read at all. -/
def replied (id : ℕ) (data : Bytes) : Option Bool :=
  (setup.pickle.loads (data.take bufferSize)).map fun reply =>
    reply.key = (Command.pingReply.tuple [.str (setup.cookie id)]).key

/-- `stop`, which also runs when something was raised. -/
def quit (world : World V) : World V :=
  world.goOn .done
    (setup.table.keys.map fun id => .shutdown (world.processes id).node.address)

/-- The next ping, or the value once all nodes replied. -/
def proceed (world : World V) : World V :=
  match world.main with
  | .asking (id :: left) =>
      world.goOn (.listening id left)
        [.ping (world.processes id).node.address (setup.cookie id)]
  | .asking [] =>
      world.goOn .waiting
        [.trustValue (world.processes leader).node.address leader setup.value]
  | _ => world

def hear (data : Bytes) (world : World V) : World V :=
  match world.main with
  | .listening id left =>
      match setup.replied id data with
      | some true => world.goOn (.asking left) []
      | some false => world.goOn (.asking (id :: left)) []
      | none => setup.quit world
  | _ => world

end Setup

namespace World

/-- No reply came, so that the node is asked again. -/
def timeout (world : World V) : World V :=
  match world.main with
  | .listening id left => world.goOn (.asking (id :: left)) []
  | _ => world

/-- A process took a turn. -/
def put (id : ℕ) (process : Process V) (outputs : List (Output V))
    (world : World V) : World V :=
  { world with
    processes := Function.update world.processes id process
    log := world.log ++ outputs.map (.out id) }

/-- A process enters or leaves its loop. -/
def flag (id : ℕ) (stop : Bool) (world : World V) : World V :=
  world.put id { world.processes id with stop := some stop } []

/-- What can happen.  Anybody may send a datagram, from any address. -/
def Enabled (setup : Setup V) (world : World V) : Move → Prop
  | .enter id => id ∈ setup.table.keys ∧ (world.processes id).stop = none
  | .arrive id _ data =>
      id ∈ setup.table.keys ∧ (world.processes id).stop = some false ∧
        (setup.read data).Typed
  | .interrupt id =>
      id ∈ setup.table.keys ∧ (world.processes id).stop = some false
  | .proceed => ∃ left, world.main = .asking left
  | .hear _ _ => ∃ id left, world.main = .listening id left
  | .timeout => ∃ id left, world.main = .listening id left
  | .quit => world.main ≠ .done

/-- No datagram is forged: it was sent from where it comes, or no node takes it
for a message of the protocol or for a ping, nor the main process for the reply
it waits for. -/
def Honest (setup : Setup V) (world : World V) : Move → Prop
  | .arrive id src data =>
      ⟨src, (world.processes id).node.address, data⟩ ∈ setup.wire world ∨
        (setup.read data).Strange
  | .hear src data => ⟨src, setup.omega, data⟩ ∈ setup.wire world ∨
      ∀ id ∈ world.main.awaits, setup.replied id data ≠ some true
  | _ => True

instance (world : World V) : Decidable (∃ left, world.main = .asking left) :=
  match world.main with
  | .asking left => isTrue ⟨left, rfl⟩
  | .listening _ _ => isFalse nofun
  | .waiting => isFalse nofun
  | .done => isFalse nofun

instance (world : World V) :
    Decidable (∃ id left, world.main = .listening id left) :=
  match world.main with
  | .listening id left => isTrue ⟨id, left, rfl⟩
  | .asking _ => isFalse nofun
  | .waiting => isFalse nofun
  | .done => isFalse nofun

instance (setup : Setup V) (world : World V) :
    (move : Move) → Decidable (world.Enabled setup move)
  | .enter _ => inferInstanceAs (Decidable (_ ∧ _))
  | .arrive _ _ _ => inferInstanceAs (Decidable (_ ∧ _ ∧ Call.Typed _))
  | .interrupt _ => inferInstanceAs (Decidable (_ ∧ _))
  | .proceed => inferInstanceAs (Decidable (∃ left, _ = Main.asking left))
  | .hear _ _ => inferInstanceAs (Decidable (∃ id left,
      world.main = .listening id left))
  | .timeout => inferInstanceAs (Decidable (∃ id left,
      world.main = .listening id left))
  | .quit => inferInstanceAs (Decidable (_ ≠ _))

instance (setup : Setup V) (world : World V) :
    (move : Move) → Decidable (world.Honest setup move)
  | .arrive _ _ _ => inferInstanceAs (Decidable (_ ∨ Call.Strange _))
  | .hear _ data => inferInstanceAs (Decidable
      (_ ∨ ∀ id ∈ world.main.awaits, setup.replied id data ≠ some true))
  | .enter _ => inferInstanceAs (Decidable True)
  | .interrupt _ => inferInstanceAs (Decidable True)
  | .proceed => inferInstanceAs (Decidable True)
  | .timeout => inferInstanceAs (Decidable True)
  | .quit => inferInstanceAs (Decidable True)

def step [LinearOrder V] (setup : Setup V) (world : World V) :
    Move → World V
  | .enter id => world.flag id false
  | .arrive id src data =>
      let result := (world.processes id).turn src (setup.read data)
      world.put id result.1 result.2
  | .interrupt id => world.flag id true
  | .proceed => setup.proceed world
  | .hear _ data => setup.hear data world
  | .timeout => world.timeout
  | .quit => setup.quit world

def system [LinearOrder V] (setup : Setup V) : System (World V) Move :=
  { Enabled := Enabled setup
    step := step setup }

instance [LinearOrder V] (setup : Setup V) (world : World V)
    (moves : List Move) : Decidable ((system setup).Run world moves) :=
  inferInstanceAs (Decidable (System.Each (system setup) (Enabled setup)
    world moves))

/-- The processes as they are created: nothing was sent. -/
structure Begins (setup : Setup V) (world : World V) : Prop where
  distinct : ∀ id other address, setup.table.lookup id = some address →
    setup.table.lookup other = some address → id = other
  fresh : ∀ id ∈ setup.table.keys, ∃ omega address,
    setup.table.lookup id = some address ∧
      world.processes id = ⟨Node.new id setup.table omega address, none⟩
  main : world.main = .asking setup.table.keys
  log : world.log = []

def did? : Entry V → Option (ℕ × Effect V)
  | .out id (.did effect) => some (id, effect)
  | _ => none

/-- What the nodes are and did. -/
def network (world : World V) : Network V :=
  { nodes := fun id => (world.processes id).node
    log := world.log.filterMap did? }

/-- What a turn means to the nodes: a message that a handler gets. -/
def seen (setup : Setup V) : Move → Option (Action V)
  | .arrive id src data =>
      match setup.read data with
      | .handle message => some ⟨id, src, message⟩
      | _ => none
  | _ => none

theorem network_put (world : World V) (id : ℕ) (process : Process V)
    (effects : List (Effect V)) :
    (world.put id process (effects.map .did)).network =
      world.network.put id process.node effects := by
  have nodes : (fun other =>
      (Function.update world.processes id process other).node) =
        Function.update (fun other => (world.processes other).node) id
          process.node := by
    funext other
    by_cases here : other = id
    · subst here
      simp
    · simp [here]
  have new : ((effects.map .did).map (.out id)).filterMap did? =
      effects.map fun effect => (id, effect) := by
    rw [List.map_map, List.filterMap_map]
    change effects.filterMap (fun effect => some (id, effect)) = _
    rw [List.filterMap_eq_map']
  simp only [network, put, Network.put, nodes, List.filterMap_append, new]

theorem network_put_same (world : World V) {id : ℕ} {process : Process V}
    (same : process.node = (world.processes id).node)
    {outputs : List (Output V)}
    (silent : ∀ output ∈ outputs, did? (.out id output) = none) :
    (world.put id process outputs).network = world.network := by
  have nodes : ∀ other,
      (Function.update world.processes id process other).node =
        (world.processes other).node := by
    intro other
    by_cases here : other = id
    · subst here
      simpa using same
    · simp [here]
  have new : (outputs.map (.out id)).filterMap did? = [] := by
    apply List.filterMap_eq_nil_iff.mpr
    intro entry member
    obtain ⟨output, known, rfl⟩ := List.mem_map.mp member
    exact silent output known
  simp only [network, put, nodes, List.filterMap_append, new, List.append_nil]

@[simp] theorem network_flag (world : World V) (id : ℕ) (stop : Bool) :
    (world.flag id stop).network = world.network := by
  apply world.network_put_same
  · rfl
  · exact fun _ member => nomatch member

theorem network_goOn (world : World V) (main : Main)
    {entries : List (Entry V)} (silent : ∀ entry ∈ entries, did? entry = none) :
    (world.goOn main entries).network = world.network := by
  have new := List.filterMap_eq_nil_iff.mpr silent
  simp only [network, goOn, List.filterMap_append, new, List.append_nil]

@[simp] theorem network_quit (setup : Setup V) (world : World V) :
    (setup.quit world).network = world.network := by
  apply world.network_goOn
  intro entry member
  obtain ⟨id, -, rfl⟩ := List.mem_map.mp member
  rfl

@[simp] theorem network_proceed (setup : Setup V) (world : World V) :
    (setup.proceed world).network = world.network := by
  unfold Setup.proceed
  split
  · exact world.network_goOn _ (by simp [did?])
  · exact world.network_goOn _ (by simp [did?])
  · rfl

@[simp] theorem network_hear (setup : Setup V) (world : World V)
    (data : Bytes) : (setup.hear data world).network = world.network := by
  unfold Setup.hear
  split
  · split
    · exact world.network_goOn _ (by simp)
    · exact world.network_goOn _ (by simp)
    · exact network_quit setup world
  · rfl

@[simp] theorem network_timeout (world : World V) :
    world.timeout.network = world.network := by
  unfold timeout
  split
  · exact world.network_goOn _ (by simp)
  · rfl

theorem mem_packets {world : World V} {packet : Packet V} :
    packet ∈ world.network.packets ↔
      ∃ id, .out id (.did (.sent packet)) ∈ world.log := by
  simp only [Network.packets, network, List.filterMap_filterMap,
    List.mem_filterMap]
  constructor
  · rintro ⟨entry, member, same⟩
    cases entry with
    | out id output =>
        cases output with
        | did effect =>
            cases effect with
            | sent other =>
                cases same
                exact ⟨id, member⟩
            | accepted n v => cases same
        | pingReply src dst cookie => cases same
    | _ => cases same
  · rintro ⟨id, member⟩
    exact ⟨_, member, rfl⟩

/-- What a datagram asks for, and who sent it. -/
inductive Comes (world : World V) (src dst : Address) : Call V → Prop where
  | message (message : Message V)
      (sent : ⟨src, dst, message⟩ ∈ world.network.packets) :
      Comes world src dst (.handle message)
  | trustValue (c : ℕ) (value : Option V)
      (sent : .trustValue dst c value ∈ world.log) :
      Comes world src dst (.handle (.trustValue c value))
  | ping (cookie : Bytes) (sent : .ping dst cookie ∈ world.log) :
      Comes world src dst (.ping (.str cookie))
  | strange (call : Call V) (strange : call.Strange) :
      Comes world src dst call

theorem comes_sent {setup : Setup V} (lossless : setup.pickle.Lossless)
    {world : World V} {src dst : Address} {data : Bytes}
    (sent : ⟨src, dst, data⟩ ∈ setup.wire world) :
    world.Comes src dst (setup.read data) := by
  obtain ⟨entry, member, same⟩ := List.mem_filterMap.mp sent
  have raises : world.Comes src dst .raises := .strange _ trivial
  cases entry with
  | out id output =>
      cases output with
      | did effect =>
          cases effect with
          | accepted n v => cases same
          | sent packet =>
              cases same
              rcases read_tuple lossless setup.format packet.message.command
                (packet.message.args setup.format) with whole | broken
              · rw [call_message] at whole
                rw [Setup.read, whole]
                exact .message _ (mem_packets.mpr ⟨id, member⟩)
              · rw [Setup.read, broken]
                exact raises
      | pingReply src' dst' cookie =>
          cases same
          rcases read_tuple lossless setup.format .pingReply [cookie] with
            whole | broken
          · rw [Setup.read, whole, Command.call]
            split
            · exact .strange _ trivial
            · exact raises
          · rw [Setup.read, broken]
            exact raises
  | ping dst' cookie =>
      cases same
      rcases read_tuple lossless setup.format .ping [.str cookie] with
        whole | broken
      · rw [Setup.read, whole]
        exact .ping cookie member
      · rw [Setup.read, broken]
        exact raises
  | trustValue dst' c value =>
      cases same
      rcases read_tuple lossless setup.format .trustValue
        ((Message.trustValue c value).args setup.format) with whole | broken
      · rw [Setup.read, whole]
        have read := call_message setup.format (.trustValue c value)
        rw [Message.command] at read
        rw [read]
        exact .trustValue c value member
      · rw [Setup.read, broken]
        exact raises
  | shutdown dst' =>
      cases same
      rcases read_tuple lossless setup.format .shutdown [] with whole | broken
      · rw [Setup.read, whole]
        exact .strange _ trivial
      · rw [Setup.read, broken]
        exact raises

theorem comes {setup : Setup V} (lossless : setup.pickle.Lossless)
    {world : World V} {id : ℕ} {src : Address} {data : Bytes}
    (honest : world.Honest setup (.arrive id src data)) :
    world.Comes src (world.processes id).node.address (setup.read data) := by
  rcases honest with sent | strange
  · exact comes_sent lossless sent
  · exact .strange _ strange

section Turns

variable [LinearOrder V]

theorem network_turn (world : World V) (id : ℕ) (src : Address) {call : Call V}
    (quiet : ∀ message, call ≠ .handle message) :
    (world.put id ((world.processes id).turn src call).1
      ((world.processes id).turn src call).2).network = world.network := by
  apply world.network_put_same
  · cases call with
    | handle message => exact absurd rfl (quiet message)
    | _ => rfl
  · cases call with
    | handle message => exact absurd rfl (quiet message)
    | ping cookie =>
        intro output only
        cases List.mem_singleton.mp only
        rfl
    | _ => exact fun _ member => nomatch member

/-- The processes do what the nodes of a network do, one turn after the other,
and read each other's messages rightly. -/
theorem simulates {setup : Setup V} (lossless : setup.pickle.Lossless) :
    (system setup).Simulates (Network.peers setup.table) (fun _ => True)
      (Honest setup) network fun _ => seen setup := by
  intro world move _ enabled honest
  cases move with
  | arrive id src data =>
      have comes := comes lossless honest
      have member : id ∈ setup.table.keys := enabled.1
      simp only [system, seen, step]
      generalize setup.read data = call at comes
      cases comes with
      | message message sent =>
          exact ⟨⟨member, .inr sent⟩, world.network_put ..⟩
      | trustValue c value =>
          exact ⟨⟨member, .inl (Option.some_ne_none c)⟩, world.network_put ..⟩
      | ping => exact world.network_turn id src nofun
      | strange call strange =>
          cases call with
          | handle => exact strange.elim
          | _ => exact world.network_turn id src nofun
  | enter id => exact world.network_flag id false
  | interrupt id => exact world.network_flag id true
  | proceed => exact network_proceed setup world
  | hear src data => exact network_hear setup world data
  | timeout => exact world.network_timeout
  | quit => exact network_quit setup world

end Turns

theorem Begins.network {setup : Setup V} {world : World V}
    (begins : world.Begins setup) : world.network.Begins setup.table where
  distinct := begins.distinct
  id := by
    intro id member
    obtain ⟨omega, address, -, fresh⟩ := begins.fresh id member
    simp only [World.network, fresh]
    rfl
  nodes := by
    intro id member
    obtain ⟨omega, address, -, fresh⟩ := begins.fresh id member
    simp only [World.network, fresh]
    rfl
  address := by
    intro id member
    obtain ⟨omega, address, lookup, fresh⟩ := begins.fresh id member
    simp only [World.network, fresh]
    exact lookup
  fresh := by
    intro id member
    obtain ⟨omega, address, -, fresh⟩ := begins.fresh id member
    refine ⟨omega, address, ?_⟩
    simp only [World.network, fresh]
  log := by
    simp [World.network, begins.log]

end World

end SwitchPaxos.Insane
