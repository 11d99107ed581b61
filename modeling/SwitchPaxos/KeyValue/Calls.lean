import SwitchPaxos.KeyValue.Absorbing
import SwitchPaxos.KeyValue.Client
import SwitchPaxos.KeyValue.StackPickle

/-!
# What calls return

A response or a put that is held back in the network until a later call can
reach the client or the server as if it were new.  Without such messages, and
with values that fit in a message, every response that the client receives ends
a call, which returns the server's response to one of its own requests, and
`get` returns what was put last.
-/

namespace SwitchPaxos.KeyValue.World

open Python (Value Key Objects ascii)
open KeyValueServer

variable {ο : Type} [DecidableEq ο] [Objects ο]

/-- The value some requests leave under a key. -/
def lastPut (key : Key ο) (requests : List (Request ο)) : Option (Value ο) :=
  requests.foldl (fun found request => (stores key (some request)).or found)
    none

/-- Each `get` returned the value of the last put before it that returned, or
`None`. -/
def Latest (returned : List (Completed ο)) : Prop :=
  ∀ earlier completed later key, returned = earlier ++ completed :: later →
    completed.request = .get key →
    completed.value = (key.key.bind fun filed =>
      lastPut filed (earlier.map Completed.request)).getD .none

/-- Nothing raised.  Each response that was received ended a call, which
returned what the server responded to one of its requests, and `get` returned
what was put last. -/
structure Faithful (pickle : Pickle ο) (world : World ο) : Prop where
  going : world.phase ≠ .raised ∧ world.serving
  received : world.received.map Message.call =
    world.returned.map Completed.call
  own : ∀ completed ∈ world.returned, ∃ message ∈ world.answered,
    message.call = completed.call ∧ message.request = completed.request ∧
      pickle.parseResponse message.datagram.data = .ok completed.value
  latest : Latest world.returned

/-- The key under which a request stores something. -/
def filed : Request ο → Option (Key ο)
  | .put key _ => key.key
  | _ => none

/-- A response that is received responds to the call that waits for it, and a
put is handled before the puts on the same key in later calls are. -/
def Timely (self : World ο) : Action ο → Prop
  | .receive index => ∀ message ∈ self.responses[index]?,
      message.call + 1 = self.calls.length
  | .serve index => ∀ message ∈ self.requests[index]?,
      ∀ other ∈ self.answered, filed message.request ≠ none →
        filed other.request = filed message.request →
        other.call ≤ message.call
  | _ => True

/-- The client can send a request, which fits in the buffer. -/
def Sendable (setup : Setup ο) (request : Request ο) : Prop :=
  ∃ data, request.text setup.pickle = some data ∧
    data.length ≤ bufferSize ∧ setup.client data

/-- Each request can be sent.  The server can carry it out, log it and respond,
and each message fits in the buffer. -/
def Handy (setup : Setup ο) (self : World ο) : Action ο → Prop
  | .call request => Sendable setup request
  | .serve index => ∀ message ∈ self.requests[index]?,
      Digestible setup.pickle setup.server self.db message.datagram ∧
        ∀ data ∈ setup.pickle.response (reply (some message.request) self.db),
          data.length ≤ bufferSize
  | _ => True

instance (self : World ο) : (action : Action ο) →
    Decidable (self.Timely action)
  | .call _ => inferInstanceAs (Decidable True)
  | .timeout => inferInstanceAs (Decidable True)
  | .serve index =>
      inferInstanceAs (Decidable (∀ message ∈ self.requests[index]?, _))
  | .receive index =>
      inferInstanceAs (Decidable (∀ message ∈ self.responses[index]?, _))
  | .loseRequest _ => inferInstanceAs (Decidable True)
  | .loseResponse _ => inferInstanceAs (Decidable True)

instance (setup : Setup ο) (request : Request ο) :
    Decidable (Sendable setup request) :=
  decidable_of_iff ((request.text setup.pickle).any fun data =>
    data.length ≤ bufferSize && setup.client data) (by
    simp [Sendable, Option.any_eq_true])

instance (setup : Setup ο) (self : World ο) : (action : Action ο) →
    Decidable (self.Handy setup action)
  | .call request => inferInstanceAs (Decidable (Sendable setup request))
  | .timeout => inferInstanceAs (Decidable True)
  | .serve index =>
      inferInstanceAs (Decidable (∀ message ∈ self.requests[index]?, _ ∧ _))
  | .receive _ => inferInstanceAs (Decidable True)
  | .loseRequest _ => inferInstanceAs (Decidable True)
  | .loseResponse _ => inferInstanceAs (Decidable True)

theorem lastPut_append (key : Key ο) (requests : List (Request ο))
    (request : Request ο) :
    lastPut key (requests ++ [request]) =
      (stores key (some request)).or (lastPut key requests) := by
  rw [lastPut, List.foldl_append]
  rfl

theorem stores_eq_some {key : Key ο} {request : Request ο} {value : Value ο} :
    stores key (some request) = some value ↔
      ∃ name, request = .put name value ∧ name.key = some key := by
  cases request with
  | put name other =>
      simp only [stores, Option.ite_none_right_eq_some, Option.some.injEq,
        Request.put.injEq]
      constructor
      · rintro ⟨hashed, rfl⟩
        exact ⟨name, ⟨rfl, rfl⟩, hashed⟩
      · rintro ⟨_, ⟨rfl, rfl⟩, hashed⟩
        exact ⟨hashed, rfl⟩
  | get name => simp [stores]
  | ping => simp [stores]

theorem filed_of_stores {key : Key ο} {request : Request ο} {value : Value ο}
    (stored : stores key (some request) = some value) :
    filed request = some key := by
  obtain ⟨name, rfl, hashed⟩ := stores_eq_some.mp stored
  exact hashed

theorem lastPut_of_last {key : Key ο} {requests : List (Request ο)}
    {value : Value ο} {n : ℕ} {request : Request ο}
    (here : requests[n]? = some request)
    (stored : stores key (some request) = some value)
    (later : ∀ m other, n < m → requests[m]? = some other →
      stores key (some other) = none) :
    lastPut key requests = some value := by
  induction requests using List.reverseRecOn with
  | nil => simp at here
  | append_singleton requests last induction =>
      rw [lastPut_append]
      rcases Nat.lt_or_ge n requests.length with before | atEnd
      · have silent : stores key (some last) = none :=
          later requests.length last before List.getElem?_concat_length
        rw [silent, Option.none_or]
        apply induction
        · rwa [List.getElem?_append_left before] at here
        · intro m other above found
          apply later m other above
          rw [List.getElem?_append_left]
          · exact found
          · exact (List.getElem?_eq_some_iff.mp found).1
      · have equal : requests.length = n := by
          have bound := (List.getElem?_eq_some_iff.mp here).1
          rw [List.length_append, List.length_singleton] at bound
          omega
        subst equal
        rw [List.getElem?_concat_length] at here
        rw [Option.some.inj here, stored, Option.some_or]

theorem Latest.append {returned : List (Completed ο)} (latest : Latest returned)
    {last : Completed ο}
    (value : ∀ key, last.request = .get key →
      last.value = (key.key.bind fun filed =>
        lastPut filed (returned.map Completed.request)).getD .none) :
    Latest (returned ++ [last]) := by
  intro earlier completed later key split get
  rcases List.eq_nil_or_concat later with rfl | ⟨before, final, rfl⟩
  · obtain ⟨rfl, here⟩ := List.append_inj' split rfl
    obtain rfl := List.singleton_inj.mp here
    exact value key get
  · rw [List.concat_eq_append, ← List.cons_append, ← List.append_assoc] at split
    obtain ⟨old, -⟩ := List.append_inj' split rfl
    exact latest earlier completed before key old get

/-- The calls that were answered are the first ones. -/
def AnsweredUpTo (count : ℕ) (world : World ο) : Prop :=
  ∀ call, call < count ↔ ∃ message ∈ world.answered, message.call = call

/-- How the state of the world came about: the server answered the first calls,
in their order at first, and its database is what they leave. -/
structure Inv (setup : Setup ο) (world : World ο) : Prop where
  sendable : ∀ request ∈ world.calls, Sendable setup request
  requests : ∀ message ∈ world.requests,
    world.calls[message.call]? = some message.request ∧
      ∃ data, message.request.text setup.pickle = some data ∧
        data.length ≤ bufferSize ∧
          message.datagram = ⟨data, world.ip, world.port⟩
  responses : ∀ message ∈ world.responses, message ∈ world.answered
  answered : ∀ message ∈ world.answered,
    world.calls[message.call]? = some message.request ∧
      ∃ value, setup.pickle.response value = some message.datagram.data ∧
        message.datagram.data.length ≤ bufferSize
  returned : world.returned.map Completed.request =
    world.calls.take world.returned.length
  numbers : world.returned.map Completed.call =
    List.range world.returned.length
  ongoing : world.calls.length =
    if world.phase = .idle then world.returned.length
    else world.returned.length + 1
  db : ∃ count, AnsweredUpTo count world ∧
    ∀ key, world.db.lookup key = lastPut key (world.calls.take count)
  current : ∀ message ∈ world.answered,
    message.call = world.returned.length → ∀ key,
    message.request = .get key →
    setup.pickle.response ((key.key.bind fun filed =>
      lastPut filed (world.returned.map Completed.request)).getD .none) =
        some message.datagram.data
  printable : Printable world.db
  faithful : Faithful setup.pickle world

variable {setup : Setup ο} {world : World ο}

theorem inv_new (ip : String) (port : ℕ) : Inv setup (new ip port) := by
  have nothing : ∀ key, (new ip port : World ο).db.lookup key = none := by
    simp [new]
  refine ⟨by simp [new], by simp [new], by simp [new], by simp [new], rfl, rfl,
    rfl, ⟨0, by simp [AnsweredUpTo, new], nothing⟩, by simp [new], ?_, ?_⟩
  · intro key value found
    rw [nothing] at found
    cases found
  · exact ⟨by simp [new], by simp [new], by simp [new], by simp [Latest, new]⟩

namespace Inv

theorem count_le (inv : Inv setup world) {count : ℕ}
    (answered : AnsweredUpTo count world) :
    count ≤ world.calls.length := by
  by_contra more
  obtain ⟨message, member, last⟩ :=
    (answered world.calls.length).mp (Nat.lt_of_not_le more)
  have found := (inv.answered message member).1
  rw [last, List.getElem?_eq_none le_rfl] at found
  cases found

theorem returned_le (inv : Inv setup world) {count : ℕ}
    (answered : AnsweredUpTo count world) :
    world.returned.length ≤ count := by
  by_contra more
  have listed : count ∈ world.returned.map Completed.call := by
    rw [inv.numbers]
    exact List.mem_range.mpr (Nat.lt_of_not_le more)
  obtain ⟨completed, member, number⟩ := List.mem_map.mp listed
  obtain ⟨message, answers, same, -⟩ := inv.faithful.own completed member
  have below := (answered count).mpr ⟨message, answers, same.trans number⟩
  exact absurd below (lt_irrefl count)

theorem length_calls_le (inv : Inv setup world) :
    world.calls.length ≤ world.returned.length + 1 := by
  rw [inv.ongoing]
  split <;> omega

/-- A put that comes again, and no put on its key was answered after it, is the
last one. -/
theorem lastPut_again (inv : Inv setup world) {count n : ℕ}
    (answered : AnsweredUpTo count world) (again : n < count)
    {request : Request ο} (asked : world.calls[n]? = some request)
    (timely : ∀ other ∈ world.answered, filed request ≠ none →
      filed other.request = filed request → other.call ≤ n)
    {key : Key ο} {value : Value ο}
    (stored : stores key (some request) = some value) :
    lastPut key (world.calls.take count) = some value := by
  have here : (world.calls.take count)[n]? = some request := by
    rw [List.getElem?_take_of_lt again]
    exact asked
  apply lastPut_of_last here stored
  intro m other above found
  have below : m < count := by
    have bound := (List.getElem?_eq_some_iff.mp found).1
    exact (List.length_take_le count world.calls).trans_lt' bound
  obtain ⟨message, member, rfl⟩ := (answered m).mp below
  have same := (inv.answered message member).1
  rw [List.getElem?_take_of_lt below, same] at found
  obtain rfl := Option.some.inj found
  cases overwritten : stores key (some message.request) with
  | none => rfl
  | some newer =>
      have named := filed_of_stores stored
      have late := timely message member
        (by rw [named]; exact Option.some_ne_none key)
        (by rw [named, filed_of_stores overwritten])
      omega

theorem carryOut (inv : Inv setup world) {n : ℕ} {request : Request ο}
    (asked : world.calls[n]? = some request)
    (timely : ∀ other ∈ world.answered, filed request ≠ none →
      filed other.request = filed request → other.call ≤ n) :
    ∃ count, (∀ call, call < count ↔
        (∃ message ∈ world.answered, message.call = call) ∨ call = n) ∧
      ∀ key, (carryOut (some request) world.db).lookup key =
        lastPut key (world.calls.take count) := by
  obtain ⟨count, answered, db⟩ := inv.db
  have inside : n < world.calls.length :=
    (List.getElem?_eq_some_iff.mp asked).1
  have bound := inv.returned_le answered
  have most := inv.length_calls_le
  rcases Nat.lt_or_ge n count with again | first
  · refine ⟨count, ?_, ?_⟩
    · intro call
      rw [← answered call]
      omega
    · intro key
      rw [lookup_carryOut, db key]
      cases stored : stores key (some request) with
      | none => exact Option.none_or
      | some value =>
          rw [Option.some_or,
            inv.lastPut_again answered again asked timely stored]
  · have next : n = count := by omega
    subst next
    refine ⟨n + 1, ?_, ?_⟩
    · intro call
      rw [← answered call]
      omega
    · intro key
      rw [lookup_carryOut, db key, List.take_add_one, asked, Option.toList_some,
        lastPut_append]

/-- While a call that puts nothing is under way, the database is what the calls
that returned left. -/
theorem lookup_db (inv : Inv setup world) {request : Request ο}
    (asked : world.calls[world.returned.length]? = some request)
    (silent : ∀ key, stores key (some request) = none) (key : Key ο) :
    world.db.lookup key =
      lastPut key (world.returned.map Completed.request) := by
  obtain ⟨count, answered, db⟩ := inv.db
  have atLeast := inv.returned_le answered
  have atMost := inv.count_le answered
  have most := inv.length_calls_le
  rw [db key, inv.returned]
  rcases Nat.eq_or_lt_of_le atLeast with equal | more
  · rw [← equal]
  · have next : count = world.returned.length + 1 := by omega
    rw [next, List.take_add_one, asked, Option.toList_some, lastPut_append,
      silent key, Option.none_or]

/-- What the server replies to a `get` that is under way. -/
theorem reply_get (inv : Inv setup world) {key : Value ο}
    (asked : world.calls[world.returned.length]? = some (.get key)) :
    reply (some (.get key)) world.db = (key.key.bind fun filed =>
      lastPut filed (world.returned.map Completed.request)).getD .none := by
  have silent : ∀ filed, stores filed (some (.get key)) = none :=
    fun filed => rfl
  have lookup : (fun filed => world.db.lookup filed) = fun filed =>
      lastPut filed (world.returned.map Completed.request) :=
    funext (inv.lookup_db asked silent)
  simp only [reply, lookup]

theorem network (inv : Inv setup world) {requests responses : List (Message ο)}
    (asked : ∀ message ∈ requests,
      world.calls[message.call]? = some message.request ∧
        ∃ data, message.request.text setup.pickle = some data ∧
          data.length ≤ bufferSize ∧
            message.datagram = ⟨data, world.ip, world.port⟩)
    (answered : ∀ message ∈ responses, message ∈ world.answered) :
    Inv setup { world with requests, responses } :=
  ⟨inv.sendable, asked, answered, inv.answered, inv.returned, inv.numbers,
    inv.ongoing, inv.db, inv.current, inv.printable,
    inv.faithful.going, inv.faithful.received, inv.faithful.own,
    inv.faithful.latest⟩

theorem send (inv : Inv setup world) : Inv setup (world.send setup) := by
  unfold World.send
  split
  · exact inv
  next request last =>
    obtain ⟨data, written, fits, taken⟩ :=
      inv.sendable request (List.mem_of_getLast? last)
    have sent :
        (request.text setup.pickle).filter setup.client = some data := by
      rw [written, Option.filter_some, if_pos taken]
    simp only [sent]
    apply inv.network _ inv.responses
    intro message member
    rcases List.mem_append.mp member with earlier | here
    · exact inv.requests message earlier
    · rw [List.mem_singleton.mp here]
      refine ⟨?_, data, written, fits, rfl⟩
      rw [List.getLast?_eq_getElem?] at last
      exact last

theorem call (inv : Inv setup world) {request : Request ο}
    (idle : world.phase = .idle) (handy : Sendable setup request) :
    Inv setup (world.call setup request) := by
  apply send
  have finished := inv.ongoing
  rw [if_pos idle] at finished
  have kept : ∀ {n : ℕ} {other : Request ο}, world.calls[n]? = some other →
      (world.calls ++ [request])[n]? = some other := by
    intro n other found
    rw [List.getElem?_append_left (List.getElem?_eq_some_iff.mp found).1]
    exact found
  refine ⟨?_, ?_, inv.responses, ?_, ?_, ?_, ?_, ?_, ?_, inv.printable, ?_⟩
  · intro other member
    rcases List.mem_append.mp member with earlier | here
    · exact inv.sendable other earlier
    · rw [List.mem_singleton.mp here]
      exact handy
  · intro message member
    obtain ⟨found, datagram⟩ := inv.requests message member
    exact ⟨kept found, datagram⟩
  · intro message member
    obtain ⟨found, response⟩ := inv.answered message member
    exact ⟨kept found, response⟩
  · rw [List.take_append_of_le_length finished.ge]
    exact inv.returned
  · exact inv.numbers
  · simp [finished]
  · obtain ⟨count, answered, db⟩ := inv.db
    have bound := inv.count_le answered
    refine ⟨count, answered, ?_⟩
    rw [List.take_append_of_le_length bound]
    exact db
  · exact inv.current
  · exact ⟨⟨nofun, inv.faithful.going.2⟩, inv.faithful.received,
      inv.faithful.own, inv.faithful.latest⟩

/-- The first request of a call is carried out after those of all calls before
it, and one that comes again changes nothing. -/
theorem serve (inv : Inv setup world) (lossless : setup.pickle.Lossless)
    {index : ℕ} (timely : world.Timely (.serve index))
    (handy : world.Handy setup (.serve index)) :
    Inv setup (world.serve setup index) := by
  unfold World.serve
  split
  · exact inv
  next message found =>
    have member := List.mem_of_getElem? found
    obtain ⟨asked, text, written, fits, datagram⟩ :=
      inv.requests message member
    obtain ⟨digestible, short⟩ := handy message found
    have request : setup.pickle.request message.datagram.data =
        some message.request := by
      rw [datagram]
      exact lossless.request_text written
    have whole : recv message.datagram = message.datagram := by
      apply recv_of_le
      rw [datagram]
      exact fits
    obtain ⟨data, response, one⟩ := digestible.answer
    have handled := digestible.handle inv.printable
    have printable := digestible.printable inv.printable
    rw [request] at response printable handled
    simp only [whole, handled, one, List.map_cons, List.map_nil]
    have kept : ∀ other ∈ world.requests.eraseIdx index,
        other ∈ world.requests :=
      fun other remains => List.mem_of_mem_eraseIdx remains
    obtain ⟨count, answered, db⟩ := inv.carryOut asked (timely message found)
    refine ⟨inv.sendable,
      fun other remains => inv.requests other (kept other remains), ?_, ?_,
      inv.returned, inv.numbers, inv.ongoing, ?_, ?_, printable,
      ⟨inv.faithful.going.1, rfl⟩, inv.faithful.received, ?_,
      inv.faithful.latest⟩
    · intro other listed
      rcases List.mem_append.mp listed with earlier | here
      · exact List.mem_append_left _ (inv.responses other earlier)
      · exact List.mem_append_right _ here
    · intro other listed
      rcases List.mem_append.mp listed with earlier | here
      · exact inv.answered other earlier
      · rw [List.mem_singleton.mp here]
        exact ⟨asked, _, response, short data response⟩
    · refine ⟨count, ?_, db⟩
      intro call
      rw [answered call]
      simp [or_and_right, exists_or, eq_comm]
    · intro other listed
      rcases List.mem_append.mp listed with earlier | here
      · exact inv.current other earlier
      · rw [List.mem_singleton.mp here]
        intro ongoing key get
        rw [get] at asked response
        rw [← inv.reply_get (ongoing ▸ asked)]
        exact response
    · intro completed listed
      obtain ⟨other, earlier, same⟩ := inv.faithful.own completed listed
      exact ⟨other, List.mem_append_left _ earlier, same⟩

/-- The call that waits returns what the server responded to it. -/
theorem returns (inv : Inv setup world) (lossless : setup.pickle.Lossless)
    (ongoing : world.calls.length = world.returned.length + 1)
    {message : Message ο} (member : message ∈ world.answered)
    (number : message.call = world.returned.length) {value : Value ο}
    (response : setup.pickle.response value = some message.datagram.data) :
    Inv setup
      { world with
        phase := .idle
        received := world.received ++ [message]
        returned := world.returned ++
          [⟨world.returned.length, message.request, value⟩] } := by
  have asked := (inv.answered message member).1
  rw [number] at asked
  refine ⟨inv.sendable, inv.requests, inv.responses, inv.answered, ?_, ?_, ?_,
    inv.db, ?_, inv.printable, ⟨nofun, inv.faithful.going.2⟩, ?_, ?_, ?_⟩
  · rw [List.map_append, inv.returned, List.length_append,
      List.length_singleton, List.take_add_one, asked]
    rfl
  · rw [List.map_append, inv.numbers, List.length_append,
      List.length_singleton, List.range_succ]
    rfl
  · rw [List.length_append]
    exact ongoing
  · intro other listed beyond
    rw [List.length_append, List.length_singleton] at beyond
    have found := (inv.answered other listed).1
    rw [beyond, ← ongoing, List.getElem?_eq_none le_rfl] at found
    cases found
  · simp [inv.faithful.received, number]
  · intro completed listed
    rcases List.mem_append.mp listed with earlier | here
    · exact inv.faithful.own completed earlier
    · rw [List.mem_singleton.mp here]
      exact ⟨message, member, number, rfl,
        lossless.parseResponse_response response⟩
  · apply inv.faithful.latest.append
    intro key get
    have same := lossless.parseResponse_response
      (inv.current message member number key get)
    rw [lossless.parseResponse_response response] at same
    exact Except.ok.inj same

theorem receive (inv : Inv setup world) (lossless : setup.pickle.Lossless)
    {index : ℕ} (waiting : world.phase = .waiting)
    (timely : world.Timely (.receive index)) :
    Inv setup (world.receive setup index) := by
  unfold World.receive
  split
  case h_2 => exact inv
  next message request found last =>
    have kept : ∀ other ∈ world.responses.eraseIdx index,
        other ∈ world.answered := by
      intro other remains
      exact inv.responses other (List.mem_of_mem_eraseIdx remains)
    have ongoing := inv.ongoing
    rw [if_neg (by rw [waiting]; decide)] at ongoing
    have own := timely message found
    have member := inv.responses message (List.mem_of_getElem? found)
    obtain ⟨asked, value, response, fits⟩ := inv.answered message member
    have number : message.call = world.returned.length := by omega
    have same : message.request = request := by
      rw [List.getLast?_eq_getElem?, ongoing, Nat.add_sub_cancel,
        ← number, asked] at last
      exact Option.some.inj last
    have parsed : setup.pickle.parseResponse (recv message.datagram).data =
        .ok value := by
      rw [recv_of_le fits]
      exact lossless.parseResponse_response response
    simp only [parsed]
    have returned := inv.returns lossless ongoing member number response
    rw [ongoing, Nat.add_sub_cancel, ← same]
    exact returned.network inv.requests kept

theorem step (inv : Inv setup world) (lossless : setup.pickle.Lossless)
    {action : Action ο} (enabled : world.Enabled action)
    (timely : world.Timely action) (handy : world.Handy setup action) :
    Inv setup (world.step setup action) := by
  cases action with
  | call request => exact inv.call enabled handy
  | timeout => exact inv.send
  | serve index => exact inv.serve lossless timely handy
  | receive index => exact inv.receive lossless enabled.1 timely
  | loseRequest index =>
      apply inv.network _ inv.responses
      intro message remains
      exact inv.requests message (List.mem_of_mem_eraseIdx remains)
  | loseResponse index =>
      apply inv.network inv.requests
      intro message remains
      exact inv.responses message (List.mem_of_mem_eraseIdx remains)

end Inv

/-- If no message is held back until a later call, and all messages can be sent,
read and handled, then nothing raises, and every response that is received ends
a call, which returns what the server responded to one of its requests; `get`
returns what was put last. -/
theorem faithful_of_timely (lossless : setup.pickle.Lossless) {ip : String}
    {port : ℕ} {actions : List (Action ο)}
    (run : (system setup).Run (new ip port) actions)
    (timely : (system setup).Each Timely (new ip port) actions)
    (handy : (system setup).Each (Handy setup) (new ip port) actions) :
    Faithful setup.pickle ((system setup).after (new ip port) actions) := by
  have both : (system setup).Each
      (fun state action => state.Timely action ∧ state.Handy setup action)
      (new ip port) actions := System.each_and.mpr ⟨timely, handy⟩
  have always : ∀ state action, True → (system setup).Enabled state action →
      True := fun _ _ _ _ => trivial
  have kept : ∀ state action, True → (system setup).Enabled state action →
      state.Timely action ∧ state.Handy setup action → Inv setup state →
      Inv setup ((system setup).step state action) := by
    intro state action _ enabled ⟨timely, handy⟩ inv
    exact inv.step lossless enabled timely handy
  have inv := run.property_of_each (Inv setup) both always kept trivial
    (inv_new ip port)
  exact inv.faithful

/-- All values can be pickled, and the sockets take all that UDP can carry. -/
def stacked : Setup Empty where
  pickle := StackPickle.pickle
  client := fun data => data.length ≤ 65507
  server := fun datagram => datagram.data.length ≤ 65507

/-- A put is sent twice and answered twice, and the second response is lost. -/
theorem faithful_of_timely_resent :
    let key : Value Empty := .str (ascii "counter")
    let start : World Empty := new "10.0.0.3" 4711
    let actions : List (Action Empty) :=
      [.call (.put key (.int 1)), .timeout, .serve 1, .receive 0, .serve 0,
        .loseResponse 0, .call (.get key), .serve 0, .receive 0]
    let reached := (system stacked).after start actions
    reached.returned.map (fun completed => completed.value.key) =
        [some .none, some (.int 1)] ∧
      Faithful StackPickle.pickle reached := by
  intro key start actions reached
  have run : (system stacked).Run start actions := by
    decide +kernel
  have timely : (system stacked).Each Timely start actions := by
    decide +kernel
  have handy : (system stacked).Each (Handy stacked) start actions := by
    decide +kernel
  exact ⟨by decide +kernel,
    faithful_of_timely StackPickle.lossless run timely handy⟩

/-- A put is sent twice and answered twice.  The second response arrives while
the client waits for the response to a `get`, which returns `None`. -/
theorem late_response :
    let key : Value Empty := .str (ascii "counter")
    let start : World Empty := new "10.0.0.3" 4711
    let actions : List (Action Empty) :=
      [.call (.put key (.int 1)), .timeout, .serve 0, .serve 0, .receive 0,
        .call (.get key), .receive 0]
    let reached := (system stacked).after start actions
    (system stacked).Run start actions ∧
      reached.returned.map (fun completed => completed.value.key) =
        [some .none, some .none] ∧
      ¬ Faithful StackPickle.pickle reached := by
  intro key start actions reached
  refine ⟨by decide +kernel, by decide +kernel, ?_⟩
  intro faithful
  have second : ∃ completed ∈ reached.returned, completed.call = 1 := by
    decide +kernel
  have first : ∀ message ∈ reached.answered, message.call = 0 := by
    decide +kernel
  obtain ⟨completed, returned, number⟩ := second
  obtain ⟨message, answered, same, -⟩ := faithful.own completed returned
  rw [first message answered, number] at same
  cases same

end SwitchPaxos.KeyValue.World
