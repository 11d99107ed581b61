import SwitchPaxos.Insane.Processes
import SwitchPaxos.KeyValue.StackPickle

/-!
# Starting the processes

A process answers pings once it is in its loop.  So the main process, which
waits for an answer of each of them, sends the value only when all of them are,
and from then on the only node that ever proposes is the leader.
-/

namespace SwitchPaxos.Insane

open KeyValue
open Python (Value Key)

variable {V : Type}

/-- The nodes that have not answered the main process yet. -/
def Main.left : Main → List ℕ
  | .asking left => left
  | .listening id left => id :: left
  | _ => []

def Entry.Trusts : Entry V → Prop
  | .trustValue _ _ _ => True
  | _ => False

instance : (entry : Entry V) → Decidable entry.Trusts
  | .trustValue _ _ _ => inferInstanceAs (Decidable True)
  | .out _ _ => inferInstanceAs (Decidable False)
  | .ping _ _ => inferInstanceAs (Decidable False)
  | .shutdown _ => inferInstanceAs (Decidable False)

/-- No two nodes are sent the same cookie. -/
def Setup.Fresh (setup : Setup V) : Prop :=
  ∀ id ∈ setup.table.keys, ∀ other ∈ setup.table.keys,
    setup.cookie id = setup.cookie other → id = other

theorem Node.Reacts.untrusted [LinearOrder V] {node later : Node V}
    {sender : Address} {message : Message V} {effects : List (Effect V)}
    (reacts : node.Reacts sender message later effects) {packet : Packet V}
    (sent : .sent packet ∈ effects) : packet.message.trusted? = none := by
  have broadcast : ∀ message : Message V, message.trusted? = none →
      .sent packet ∈ node.broadcast message →
      packet.message.trusted? = none := by
    intro message untrusted told
    obtain ⟨dst, -, same⟩ := List.mem_map.mp told
    cases same
    exact untrusted
  cases reacts with
  | ignored => cases sent
  | promised =>
      cases List.mem_singleton.mp sent
      rfl
  | voted n v =>
      rcases List.mem_cons.mp sent with same | told
      · cases same
      · exact broadcast _ rfl told
  | collected =>
      split at sent
      · exact broadcast _ rfl sent
      · cases sent
  | learned => cases sent
  | trusted => exact broadcast _ rfl sent
  | wished => cases sent

namespace World

variable {setup : Setup V} {world : World V} {id : ℕ}

/-- The process has entered its loop. -/
def Up (world : World V) (id : ℕ) : Prop := (world.processes id).stop ≠ none

/-- The main process has sent the value. -/
def Given (world : World V) : Prop :=
  ∃ dst c value, .trustValue dst c value ∈ world.log

instance (world : World V) : Decidable world.Given :=
  decidable_of_iff (∃ entry ∈ world.log, entry.Trusts) <| by
    constructor
    · rintro ⟨entry, member, trusts⟩
      cases entry with
      | trustValue dst c value => exact ⟨dst, c, value, member⟩
      | _ => cases trusts
    · rintro ⟨dst, c, value, member⟩
      exact ⟨_, member, trivial⟩

/-- What was sent was called for: a reply by a ping, the value by the replies
of all nodes, and whatever a node did by the value. -/
structure Ordered (setup : Setup V) (world : World V) : Prop where
  peered : world.network.Peered setup.table
  asks : ∀ dst cookie, .ping dst cookie ∈ world.log →
    ∃ id ∈ setup.table.keys, dst = (world.processes id).node.address ∧
      cookie = setup.cookie id
  replies : ∀ id src dst cookie,
    .out id (.pingReply src dst cookie) ∈ world.log →
      id ∈ setup.table.keys ∧ world.Up id ∧ cookie = .str (setup.cookie id)
  trusts : ∀ dst c value, .trustValue dst c value ∈ world.log →
    dst = (world.processes leader).node.address ∧ c = leader ∧
      value = setup.value ∧ ∀ id ∈ setup.table.keys, world.Up id
  acts : ∀ id effect, .out id (.did effect) ∈ world.log → world.Given
  untrusted : ∀ packet ∈ world.network.packets,
    packet.message.trusted? = none
  listed : ∀ id ∈ world.main.left, id ∈ setup.table.keys
  left : world.main ≠ .done →
    ∀ id ∈ setup.table.keys, id ∈ world.main.left ∨ world.Up id

theorem Begins.ordered (begins : world.Begins setup) :
    world.Ordered setup := by
  have silent : ∀ entry, entry ∉ world.log := by
    intro entry member
    rw [begins.log] at member
    cases member
  refine ⟨begins.network.toPeered, ?_, ?_, ?_, ?_, ?_, ?_, ?_⟩
  · exact fun dst cookie sent => absurd sent (silent _)
  · exact fun id src dst cookie sent => absurd sent (silent _)
  · exact fun dst c value sent => absurd sent (silent _)
  · exact fun id effect did => absurd did (silent _)
  · exact fun packet sent => absurd sent (begins.network.silent packet)
  · rw [begins.main]
    exact fun id member => member
  · intro _ id member
    rw [begins.main]
    exact .inl member

section Put

variable {process : Process V} {outputs : List (Output V)}

theorem processes_put (other : ℕ) :
    (world.put id process outputs).processes other =
      if other = id then process else world.processes other := by
  simp [put, Function.update_apply]

theorem Up.put (flagged : world.Up id → process.stop ≠ none) {other : ℕ}
    (up : world.Up other) : (world.put id process outputs).Up other := by
  unfold Up
  rw [processes_put]
  split
  · next here =>
      rw [here] at up
      exact flagged up
  · exact up

/-- A process that says nothing that was not called for. -/
theorem Ordered.put (ordered : world.Ordered setup)
    (peered : (world.put id process outputs).network.Peered setup.table)
    (address : process.node.address = (world.processes id).node.address)
    (flagged : world.Up id → process.stop ≠ none)
    (replies : ∀ src dst cookie, .pingReply src dst cookie ∈ outputs →
      id ∈ setup.table.keys ∧ world.Up id ∧
        cookie = .str (setup.cookie id))
    (acts : ∀ effect, .did effect ∈ outputs → world.Given)
    (untrusted : ∀ packet, .did (.sent packet) ∈ outputs →
      packet.message.trusted? = none) :
    (world.put id process outputs).Ordered setup := by
  have addresses : ∀ other,
      ((world.put id process outputs).processes other).node.address =
        (world.processes other).node.address := by
    intro other
    rw [processes_put]
    split
    · next here =>
        rw [here]
        exact address
    · rfl
  have log : ∀ {entry}, entry ∈ (world.put id process outputs).log →
      entry ∈ world.log ∨ ∃ output ∈ outputs, .out id output = entry :=
    fun member => (List.mem_append.mp member).imp_right List.mem_map.mp
  have kept : ∀ {entry}, entry ∈ world.log →
      entry ∈ (world.put id process outputs).log :=
    fun member => List.mem_append_left _ member
  refine ⟨peered, ?_, ?_, ?_, ?_, ?_, ordered.listed, ?_⟩
  · intro dst cookie sent
    rcases log sent with earlier | ⟨output, -, same⟩
    · simp only [addresses]
      exact ordered.asks dst cookie earlier
    · cases same
  · intro other src dst cookie sent
    rcases log sent with earlier | ⟨output, new, same⟩
    · obtain ⟨member, up, own⟩ := ordered.replies other src dst cookie earlier
      exact ⟨member, up.put flagged, own⟩
    · cases same
      obtain ⟨member, up, own⟩ := replies src dst cookie new
      exact ⟨member, up.put flagged, own⟩
  · intro dst c value sent
    rcases log sent with earlier | ⟨output, -, same⟩
    · obtain ⟨named, own, given, up⟩ := ordered.trusts dst c value earlier
      rw [addresses]
      exact ⟨named, own, given, fun other known => (up other known).put flagged⟩
    · cases same
  · intro other effect did
    rcases log did with earlier | ⟨output, new, same⟩
    · obtain ⟨dst, c, value, sent⟩ := ordered.acts other effect earlier
      exact ⟨dst, c, value, kept sent⟩
    · cases same
      obtain ⟨dst, c, value, sent⟩ := acts effect new
      exact ⟨dst, c, value, kept sent⟩
  · intro packet sent
    obtain ⟨other, did⟩ := mem_packets.mp sent
    rcases log did with earlier | ⟨output, new, same⟩
    · exact ordered.untrusted packet (mem_packets.mpr ⟨other, earlier⟩)
    · cases same
      exact untrusted packet new
  · intro running other known
    exact (ordered.left running other known).imp_right fun up =>
      up.put flagged

end Put

/-- The main process goes on, with pings and the value only as it should. -/
theorem Ordered.goOn (ordered : world.Ordered setup) {main : Main}
    {entries : List (Entry V)} (silent : ∀ id output, .out id output ∉ entries)
    (asks : ∀ dst cookie, .ping dst cookie ∈ entries →
      ∃ id ∈ setup.table.keys, dst = (world.processes id).node.address ∧
        cookie = setup.cookie id)
    (trusts : ∀ dst c value, .trustValue dst c value ∈ entries →
      dst = (world.processes leader).node.address ∧ c = leader ∧
        value = setup.value ∧ ∀ id ∈ setup.table.keys, world.Up id)
    (listed : ∀ id ∈ main.left, id ∈ setup.table.keys)
    (left : main ≠ .done →
      ∀ id ∈ setup.table.keys, id ∈ main.left ∨ world.Up id) :
    (world.goOn main entries).Ordered setup := by
  have log : ∀ {entry}, entry ∈ (world.goOn main entries).log →
      entry ∈ world.log ∨ entry ∈ entries :=
    fun member => List.mem_append.mp member
  have kept : ∀ {entry}, entry ∈ world.log →
      entry ∈ (world.goOn main entries).log :=
    fun member => List.mem_append_left _ member
  have same : (world.goOn main entries).network = world.network := by
    apply world.network_goOn
    intro entry member
    cases entry with
    | out id output => exact absurd member (silent id output)
    | _ => rfl
  refine ⟨?_, ?_, ?_, ?_, ?_, ?_, listed, left⟩
  · rw [same]
    exact ordered.peered
  · exact fun dst cookie sent => (log sent).elim
      (ordered.asks dst cookie) (asks dst cookie)
  · intro id src dst cookie sent
    rcases log sent with earlier | new
    · exact ordered.replies id src dst cookie earlier
    · exact absurd new (silent _ _)
  · exact fun dst c value sent => (log sent).elim
      (ordered.trusts dst c value) (trusts dst c value)
  · intro id effect did
    rcases log did with earlier | new
    · obtain ⟨dst, c, value, sent⟩ := ordered.acts id effect earlier
      exact ⟨dst, c, value, kept sent⟩
    · exact absurd new (silent _ _)
  · rw [same]
    exact ordered.untrusted

/-- Only a node sends a reply, and with the cookie it was sent. -/
theorem replied_sent (lossless : setup.pickle.Lossless) {src dst : Address}
    {data : Bytes} (sent : ⟨src, dst, data⟩ ∈ setup.wire world)
    (replied : setup.replied id data = some true) :
    ∃ other cookie, .out other (.pingReply src dst cookie) ∈ world.log ∧
      cookie.key = some (.str (setup.cookie id)) := by
  have read : ∀ command args,
      setup.replied id (setup.pickle.dumps (Command.tuple command args)) =
        some true → (Command.tuple command args).key =
          (Command.pingReply.tuple [.str (setup.cookie id)]).key := by
    intro command args replied
    rcases Nat.lt_or_ge bufferSize
      (setup.pickle.dumps (command.tuple args)).length with long | fits
    · simp [Setup.replied, lossless.loads_take _ _ long] at replied
    · rw [Setup.replied, List.take_of_length_le fits,
        lossless.loads_dumps] at replied
      simpa using replied
  obtain ⟨entry, member, same⟩ := List.mem_filterMap.mp sent
  cases entry with
  | out other output =>
      cases output with
      | did effect =>
          cases effect with
          | accepted n v => cases same
          | sent packet =>
              cases same
              have reply : packet.message.command = .pingReply :=
                (key_tuple (read _ _ replied)).1
              cases message : packet.message <;>
                · rw [message] at reply
                  cases reply
      | pingReply src' dst' cookie =>
          cases same
          obtain ⟨-, value, only, key⟩ := key_tuple (read _ _ replied)
          cases only
          exact ⟨other, cookie, member, key⟩
  | ping dst' cookie =>
      cases same
      cases (key_tuple (read _ _ replied)).1
  | trustValue dst' c value =>
      cases same
      cases (key_tuple (read _ _ replied)).1
  | shutdown dst' =>
      cases same
      cases (key_tuple (read _ _ replied)).1

theorem Ordered.silent (ordered : world.Ordered setup) {process : Process V}
    (same : process.node = (world.processes id).node)
    (flagged : world.Up id → process.stop ≠ none) :
    (world.put id process []).Ordered setup := by
  refine ordered.put ?_ ?_ flagged nofun nofun nofun
  · rw [world.network_put_same same (by simp)]
    exact ordered.peered
  · rw [same]

theorem Ordered.quit (ordered : world.Ordered setup) :
    (setup.quit world).Ordered setup := by
  refine ordered.goOn ?_ ?_ ?_ nofun (fun running => absurd rfl running)
  · intro id output member
    obtain ⟨other, -, same⟩ := List.mem_map.mp member
    cases same
  · intro dst cookie member
    obtain ⟨other, -, same⟩ := List.mem_map.mp member
    cases same
  · intro dst c value member
    obtain ⟨other, -, same⟩ := List.mem_map.mp member
    cases same

theorem Ordered.wait (ordered : world.Ordered setup) {main : Main}
    (listed : ∀ id ∈ main.left, id ∈ setup.table.keys)
    (left : ∀ id ∈ setup.table.keys, id ∈ main.left ∨ world.Up id) :
    (world.goOn main []).Ordered setup :=
  ordered.goOn (fun _ _ => List.not_mem_nil) nofun nofun listed fun _ => left

theorem Ordered.proceed (ordered : world.Ordered setup) {left : List ℕ}
    (main : world.main = .asking left) :
    (setup.proceed world).Ordered setup := by
  have listed := ordered.listed
  have goes := ordered.left
  rw [main] at listed goes
  cases left with
  | nil =>
      simp only [Setup.proceed, main]
      refine ordered.goOn (by simp) (by simp) ?_ nofun fun _ =>
        goes (by simp)
      intro dst c value member
      cases List.mem_singleton.mp member
      exact ⟨rfl, rfl, rfl, fun id known =>
        (goes (by simp) id known).resolve_left List.not_mem_nil⟩
  | cons id left =>
      simp only [Setup.proceed, main]
      refine ordered.goOn (by simp) ?_ (by simp) listed fun _ =>
        goes (by simp)
      intro dst cookie member
      cases List.mem_singleton.mp member
      exact ⟨id, listed id List.mem_cons_self, rfl, rfl⟩

/-- Who answers with the cookie of a node is that node, which is up. -/
theorem Ordered.hear (ordered : world.Ordered setup)
    (lossless : setup.pickle.Lossless) (cookies : setup.Fresh)
    {src : Address} {data : Bytes}
    (enabled : world.Enabled setup (.hear src data))
    (honest : world.Honest setup (.hear src data)) :
    (setup.hear data world).Ordered setup := by
  obtain ⟨id, left, main⟩ := enabled
  have listed := ordered.listed
  have goes := ordered.left
  rw [main] at listed goes
  simp only [Setup.hear, main]
  split
  · next replied =>
      obtain ⟨other, cookie, reply, key⟩ := replied_sent lossless
        (honest.resolve_right fun different => different id
          (by simp [main, Main.awaits]) replied) replied
      obtain ⟨known, up, rfl⟩ := ordered.replies other _ _ cookie reply
      have same : other = id := by
        apply cookies other known id (listed id List.mem_cons_self)
        simpa [Value.key] using key
      subst same
      refine ordered.wait
        (fun next member => listed next (List.mem_cons_of_mem _ member)) ?_
      intro next member
      rcases goes (by simp) next member with waiting | already
      · rcases List.mem_cons.mp waiting with rfl | later
        · exact .inr up
        · exact .inl later
      · exact .inr already
  · exact ordered.wait listed (goes (by simp))
  · exact ordered.quit

section Step

variable [LinearOrder V]

theorem Ordered.arrive (ordered : world.Ordered setup)
    (lossless : setup.pickle.Lossless) {src : Address} {data : Bytes}
    (enabled : world.Enabled setup (.arrive id src data))
    (honest : world.Honest setup (.arrive id src data)) :
    (world.step setup (.arrive id src data)).Ordered setup := by
  have comes := comes lossless honest
  obtain ⟨member, looping, -⟩ := enabled
  have up : world.Up id := by
    rw [Up, looping]
    exact Option.some_ne_none _
  simp only [step]
  generalize setup.read data = call at comes
  have handled : ∀ message : Message V, world.Given →
      (world.put id ((world.processes id).turn src (.handle message)).1
        ((world.processes id).turn src (.handle message)).2).Ordered
          setup := by
    intro message sent
    have reacts := Node.receive_reacts (world.processes id).node src message
    refine ordered.put ?_ ?_ (fun up => up) ?_ (fun _ _ => sent) ?_
    · have same := world.network_put id
        ((world.processes id).turn src (.handle message)).1
        (Node.receive src message (world.processes id).node).effects
      exact same ▸ ordered.peered.react reacts
    · exact reacts.fixed.2.2.1
    · intro src' dst cookie new
      obtain ⟨effect, -, same⟩ := List.mem_map.mp new
      cases same
    · intro packet new
      obtain ⟨effect, did, same⟩ := List.mem_map.mp new
      cases same
      exact reacts.untrusted did
  cases comes with
  | message message sent =>
      obtain ⟨other, did⟩ := mem_packets.mp sent
      exact handled message (ordered.acts other _ did)
  | trustValue c value sent => exact handled _ ⟨_, c, value, sent⟩
  | ping cookie sent =>
      have quiet : ∀ message, (.ping (.str cookie) : Call V) ≠
          .handle message := by simp
      refine ordered.put ?_ rfl (fun up => up) ?_ ?_ ?_
      · rw [world.network_turn id src quiet]
        exact ordered.peered
      · intro src' dst cookie' new
        cases List.mem_singleton.mp new
        obtain ⟨other, known, same, rfl⟩ := ordered.asks _ cookie sent
        cases ordered.peered.address_inj member known same
        exact ⟨member, up, rfl⟩
      · intro effect new
        cases List.mem_singleton.mp new
      · intro packet new
        cases List.mem_singleton.mp new
  | strange call strange =>
      cases call with
      | pingReply => exact ordered.silent rfl fun up => up
      | shutdown => exact ordered.silent rfl fun _ => Option.some_ne_none _
      | raises => exact ordered.silent rfl fun _ => Option.some_ne_none _
      | unknown => exact ordered.silent rfl fun up => up
      | handle => exact strange.elim
      | _ => exact strange.elim

theorem Ordered.step (ordered : world.Ordered setup)
    (lossless : setup.pickle.Lossless) (cookies : setup.Fresh)
    {move : Move} (enabled : world.Enabled setup move)
    (honest : world.Honest setup move) :
    (world.step setup move).Ordered setup := by
  cases move with
  | enter id => exact ordered.silent rfl fun _ => Option.some_ne_none _
  | interrupt id => exact ordered.silent rfl fun _ => Option.some_ne_none _
  | arrive id src data => exact ordered.arrive lossless enabled honest
  | quit => exact ordered.quit
  | timeout =>
      obtain ⟨id, left, main⟩ := enabled
      have listed := ordered.listed
      have goes := ordered.left
      rw [main] at listed goes
      simp only [World.step, timeout, main]
      exact ordered.wait listed (goes (by simp))
  | proceed =>
      obtain ⟨left, main⟩ := enabled
      exact ordered.proceed main
  | hear src data => exact ordered.hear lossless cookies enabled honest

end Step

/-- A handler is only told to propose by the main process. -/
theorem Ordered.told (ordered : world.Ordered setup) {src dst : Address}
    {call : Call V} (comes : world.Comes src dst call) {message : Message V}
    (handles : call = .handle message) :
    (∀ c ∈ message.trusted?, c = leader) ∧
      ∀ v, message.Asks v → v = setup.value := by
  cases comes with
  | message _ sent =>
      cases handles
      have untrusted := ordered.untrusted _ sent
      cases message with
      | trust => cases untrusted
      | trustValue => cases untrusted
      | _ => exact ⟨nofun, nofun⟩
  | trustValue c value sent =>
      cases handles
      obtain ⟨-, rfl, rfl, -⟩ := ordered.trusts _ c value sent
      refine ⟨?_, fun v asks => asks⟩
      intro c named
      cases named
      rfl
  | ping => cases handles
  | strange call strange =>
      subst handles
      exact strange.elim

/-- What the moves so far mean to the nodes, and who has stopped since. -/
structure Played (setup : Setup V) (world : World V) (moves : List Move) :
    Prop where
  ordered : world.Ordered setup
  told : ∀ action ∈ moves.filterMap (seen setup),
    Network.Trusts leader action ∧
      ∀ v, action.message.Asks v → v = setup.value
  stopped : ∀ id src data, .arrive id src data ∈ moves →
    setup.read data = .raises → (world.processes id).stop = some true

/-- Each datagram for a node was taken by its process. -/
def Taken (setup : Setup V) (world : World V) (moves : List Move) : Prop :=
  ∀ datagram ∈ setup.wire world, ∀ id ∈ setup.table.keys,
    datagram.dst = (world.processes id).node.address →
      .arrive id datagram.src datagram.data ∈ moves

instance (setup : Setup V) (world : World V) (moves : List Move) :
    Decidable (world.Taken setup moves) :=
  inferInstanceAs (Decidable (∀ _ ∈ _, ∀ _ ∈ _, _ → _))

/-- A message that a process took, and did not stop at, came to its handler. -/
theorem Played.came {moves : List Move} (played : world.Played setup moves)
    (lossless : setup.pickle.Lossless)
    (looping : (world.processes id).stop = some false) {src dst : Address}
    {message : Message V}
    (taken : .arrive id src (setup.datagram src dst message.command
      (message.args setup.format)).data ∈ moves) :
    ⟨id, src, message⟩ ∈ moves.filterMap (seen setup) := by
  refine List.mem_filterMap.mpr ⟨_, taken, ?_⟩
  have read : setup.read (setup.datagram src dst message.command
      (message.args setup.format)).data = .handle message := by
    rcases read_tuple lossless setup.format message.command
      (message.args setup.format) with whole | broken
    · rw [call_message] at whole
      exact whole
    · have stopped := played.stopped id src _ taken broken
      cases looping.symm.trans stopped
  simp only [seen, read]

/-- Once the processes took all datagrams, all messages have arrived. -/
theorem Played.arrived {moves : List Move} (played : world.Played setup moves)
    (lossless : setup.pickle.Lossless)
    (looping : ∀ id ∈ setup.table.keys,
      (world.processes id).stop = some false)
    (taken : world.Taken setup moves) :
    world.network.Arrived setup.table (moves.filterMap (seen setup)) := by
  intro packet sent id member address
  obtain ⟨other, did⟩ := mem_packets.mp sent
  have wire : setup.datagram packet.src packet.dst packet.message.command
      (packet.message.args setup.format) ∈ setup.wire world :=
    List.mem_filterMap.mpr ⟨_, did, rfl⟩
  exact played.came lossless (looping id member)
    (taken _ wire id member address)

theorem Played.trusted {moves : List Move} (played : world.Played setup moves)
    (lossless : setup.pickle.Lossless) (member : leader ∈ setup.table.keys)
    (looping : (world.processes leader).stop = some false)
    (taken : world.Taken setup moves) (given : world.Given) :
    ∃ src, ⟨leader, src, .trustValue leader setup.value⟩ ∈
      moves.filterMap (seen setup) := by
  obtain ⟨dst, c, value, sent⟩ := given
  have wire : setup.datagram setup.omega dst .trustValue
      ((Message.trustValue c value).args setup.format) ∈ setup.wire world :=
    List.mem_filterMap.mpr ⟨_, sent, rfl⟩
  obtain ⟨rfl, rfl, rfl, -⟩ := played.ordered.trusts dst c value sent
  have came : ⟨leader, setup.omega, .trustValue leader setup.value⟩ ∈
      moves.filterMap (seen setup) :=
    played.came lossless looping (taken _ wire leader member rfl)
  exact ⟨setup.omega, came⟩

variable [LinearOrder V]

theorem stopped_step {move : Move} (enabled : world.Enabled setup move)
    (stopped : (world.processes id).stop = some true) :
    ((world.step setup move).processes id).stop = some true := by
  have goes : ∀ {main entries}, ((world.goOn main entries).processes id).stop =
      some true := stopped
  cases move with
  | enter other =>
      have different : id ≠ other := by
        rintro rfl
        cases stopped.symm.trans enabled.2
      rw [step, flag, processes_put, if_neg different]
      exact stopped
  | interrupt other =>
      rw [step, flag, processes_put]
      split
      · rfl
      · exact stopped
  | arrive other src data =>
      have different : id ≠ other := by
        rintro rfl
        cases stopped.symm.trans enabled.2.1
      simp only [step]
      rw [processes_put, if_neg different]
      exact stopped
  | proceed =>
      simp only [step, Setup.proceed]
      split <;> exact stopped
  | hear src data =>
      simp only [step, Setup.hear]
      split
      · split <;> exact stopped
      · exact stopped
  | timeout =>
      simp only [step, timeout]
      split <;> exact stopped
  | quit => exact stopped

theorem Played.step {moves : List Move} (played : world.Played setup moves)
    (lossless : setup.pickle.Lossless) (cookies : setup.Fresh)
    {move : Move} (enabled : world.Enabled setup move)
    (honest : world.Honest setup move) :
    (world.step setup move).Played setup (moves ++ [move]) := by
  refine ⟨played.ordered.step lossless cookies enabled honest, ?_, ?_⟩
  · intro action member
    rw [List.filterMap_append] at member
    rcases List.mem_append.mp member with earlier | new
    · exact played.told action earlier
    · obtain ⟨move', only, saw⟩ := List.mem_filterMap.mp new
      cases List.mem_singleton.mp only
      cases move with
      | arrive id src data =>
          have comes := comes lossless honest
          simp only [seen] at saw
          split at saw
          · next message handles =>
              cases saw
              exact played.ordered.told comes handles
          · cases saw
      | _ => cases saw
  · intro id src data came raises
    rcases List.mem_append.mp came with earlier | new
    · exact stopped_step enabled (played.stopped id src data earlier raises)
    · cases List.mem_singleton.mp new
      simp only [World.step]
      rw [processes_put, if_pos rfl, raises]
      rfl

/-- As long as no datagram is forged, whatever gets lost, comes twice or late
and whatever breaks a loop or the main process: a run of the processes is a run
of the network of their nodes, in which a message that a handler gets was sent
with the same content by the node that it is said to be from, or is the
TRUST-VALUE of the main process. -/
theorem run_of_nodes (lossless : setup.pickle.Lossless) {moves : List Move}
    (run : (system setup).Run world moves)
    (honest : (system setup).Each (Honest setup) world moves) :
    let actions := moves.filterMap (seen setup)
    (Network.peers setup.table).Run world.network actions ∧
      ((system setup).after world moves).network =
        (Network.peers setup.table).after world.network actions := by
  intro actions
  have matched := (simulates lossless).run (fun _ _ _ _ => trivial) trivial run
    honest
  rw [System.trace_eq_filterMap] at matched
  exact matched

theorem played_of_run (lossless : setup.pickle.Lossless)
    (cookies : setup.Fresh) (begins : world.Begins setup) {moves : List Move}
    (run : (system setup).Run world moves)
    (honest : (system setup).Each (Honest setup) world moves) :
    ((system setup).after world moves).Played setup moves :=
  run.history_of_each honest
    (fun _ _ _ played enabled honest =>
      played.step lossless cookies enabled honest)
    ⟨begins.ordered, nofun, nofun⟩

/-- As long as no datagram is forged, whatever fails: when the main process
sends the value, all processes are in their loops or have been, and before that
no node sends a message or votes. -/
theorem up_before_value (lossless : setup.pickle.Lossless)
    (cookies : setup.Fresh) (begins : world.Begins setup) {moves : List Move}
    (run : (system setup).Run world moves)
    (honest : (system setup).Each (Honest setup) world moves) :
    let reached := (system setup).after world moves
    (reached.Given → ∀ id ∈ setup.table.keys, reached.Up id) ∧
      ∀ id effect, .out id (.did effect) ∈ reached.log → reached.Given := by
  intro reached
  have ordered := (played_of_run lossless cookies begins run honest).ordered
  refine ⟨?_, ordered.acts⟩
  rintro ⟨dst, c, value, sent⟩
  exact (ordered.trusts dst c value sent).2.2.2

/-- As long as no datagram is forged, whatever fails: no node learns anything
but the value that the main process was given.  If no process stopped and each
took all datagrams for it, however often and in whatever order, then all nodes
learned that value in one round. -/
theorem nodes_learn_value (lossless : setup.pickle.Lossless)
    (cookies : setup.Fresh) (begins : world.Begins setup)
    (numbered : Network.Numbered setup.table)
    (member : leader ∈ setup.table.keys) {moves : List Move}
    (run : (system setup).Run world moves)
    (honest : (system setup).Each (Honest setup) world moves) :
    let reached := (system setup).after world moves
    (∀ id ∈ setup.table.keys, ∀ n v,
      (reached.processes id).node.values.lookup n = some v →
        v = setup.value) ∧
    ((∀ id ∈ setup.table.keys, (reached.processes id).stop = some false) →
      reached.Given → reached.Taken setup moves →
      ∃ n, ∀ id ∈ setup.table.keys,
        (reached.processes id).node.values.lookup n = some setup.value) := by
  intro reached
  have played : reached.Played setup moves :=
    played_of_run lossless cookies begins run honest
  obtain ⟨nodes, same⟩ := run_of_nodes lossless run honest
  have genuine := Network.genuine_of_run begins.network nodes
  have witnessed := Network.witnessed_of_run begins.network nodes
  have led := Network.led_of_run numbered begins.network member nodes
    fun action came => (played.told action came).1
  rw [← same] at genuine witnessed led
  have only : ∀ id ∈ setup.table.keys, ∀ n v,
      (reached.processes id).node.values.lookup n = some v →
        v = setup.value := by
    intro id known n v learned
    obtain ⟨action, came, asks⟩ := (genuine.nodes id known).learned n v learned
    exact (played.told action came).2 v asks
  refine ⟨only, ?_⟩
  intro looping given taken
  obtain ⟨src, came⟩ := played.trusted lossless member
    (looping leader member) taken given
  have leads := led.attends.trusted src _ came rfl
  obtain ⟨n, v, -, decided⟩ := led.decided witnessed
    (played.arrived lossless looping taken) member leads
  refine ⟨n, fun id known => ?_⟩
  have learned := (decided id known).2
  rw [← only id known n v learned]
  exact learned

/-- The nodes of `config.json`, with a number as the value. -/
def numbers : Setup ℕ where
  pickle := ⟨StackPickle.dumps, StackPickle.loads⟩
  format := .numbers
  table := Network.config
  omega := ("127.0.0.1", 9)
  cookie := fun id => [UInt8.ofNat id]
  value := some 5

def created : World ℕ where
  processes := fun id =>
    ⟨Node.new id Network.config (some ("0.0.0.0", 9))
      ("127.0.0.1", 2000 + id), none⟩
  main := .asking Network.config.keys
  log := []

theorem created_begins : created.Begins numbers where
  distinct := Network.three_starts.distinct
  fresh := fun id member => ⟨_, _, Network.lookup_config.mpr
    ⟨(Network.three_starts.keys id).mp member, rfl⟩, rfl⟩
  main := rfl
  log := rfl

theorem numbers_fresh : numbers.Fresh := by
  unfold Setup.Fresh
  decide

/-- The main process sends a command to a node. -/
def order (dst : ℕ) (command : Command) (args : List (Value Empty)) : Move :=
  .arrive dst numbers.omega (numbers.pickle.dumps (command.tuple args))

/-- A message comes from one node to another. -/
def mail (src dst : ℕ) (message : Message ℕ) : Move :=
  .arrive dst ("127.0.0.1", 2000 + src)
    (numbers.pickle.dumps (message.write numbers.format))

/-- The main process asks a node, which replies. -/
def greeting (id : ℕ) : List Move :=
  [.proceed, order id .ping [.str (numbers.cookie id)],
    .hear ("127.0.0.1", 2000 + id) (numbers.pickle.dumps
      (Command.pingReply.tuple [.str (numbers.cookie id)]))]

/-- The first node is too late to answer at once, and is asked twice. -/
def started : List Move :=
  [.enter 2, .proceed, .timeout, .enter 1] ++ greeting 1 ++ greeting 2 ++
    [.enter 3, order 1 .ping [.str (numbers.cookie 1)]] ++ greeting 3

/-- The third node votes before it is asked to promise. -/
def agreed : List Move :=
  [.proceed, order 1 .trustValue [.int 1, .int 5], mail 1 1 (.prepare 1),
    mail 1 2 (.prepare 1), mail 1 1 (.promise 1 none none),
    mail 2 1 (.promise 1 none none), mail 1 3 (.accept 1 (some 5)),
    mail 1 1 (.accept 1 (some 5)), mail 1 3 (.prepare 1),
    mail 1 2 (.accept 1 (some 5))] ++
    [1, 2, 3].flatMap fun id => [mail 1 id (.learn 1 (some 5)),
      mail 2 id (.learn 1 (some 5)), mail 3 id (.learn 1 (some 5))]

theorem lossless_numbers : numbers.pickle.Lossless where
  loads_dumps := StackPickle.loads_dumps
  loads_take _ _ := StackPickle.loads_take

theorem run_agreed : (system numbers).Run created (started ++ agreed) := by
  decide +kernel

theorem honest_agreed :
    (system numbers).Each (Honest numbers) created (started ++ agreed) := by
  decide +kernel

theorem run_of_nodes_three :
    let actions := (started ++ agreed).filterMap (seen numbers)
    (Network.peers numbers.table).Run created.network actions ∧
      ((system numbers).after created (started ++ agreed)).network =
        (Network.peers numbers.table).after created.network actions :=
  run_of_nodes lossless_numbers run_agreed honest_agreed

theorem up_before_value_three :
    let reached := (system numbers).after created (started ++ agreed)
    (∀ id ∈ numbers.table.keys, reached.Up id) ∧
      ∀ id effect, .out id (.did effect) ∈ reached.log → reached.Given := by
  intro reached
  have given : reached.Given := by decide +kernel
  obtain ⟨up, acts⟩ := up_before_value lossless_numbers
    numbers_fresh created_begins run_agreed honest_agreed
  exact ⟨up given, acts⟩

theorem nodes_learn_value_three :
    let reached := (system numbers).after created (started ++ agreed)
    ∃ n, ∀ id ∈ numbers.table.keys,
      (reached.processes id).node.values.lookup n = some (some 5) := by
  intro reached
  have looping : ∀ id ∈ numbers.table.keys,
      (reached.processes id).stop = some false := by decide +kernel
  have given : reached.Given := by decide +kernel
  have taken : reached.Taken numbers (started ++ agreed) := by decide +kernel
  exact (nodes_learn_value lossless_numbers numbers_fresh created_begins
    Network.numbered_config (by decide) run_agreed honest_agreed).2 looping
    given taken

end World

end SwitchPaxos.Insane
