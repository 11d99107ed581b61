import SwitchPaxos.Base.Dict
import SwitchPaxos.Base.Handler
import SwitchPaxos.KeyValue.Message

/-!
# The key-value server

The server takes one message after the other, carries the command out on its
database and responds.  Messages that are no request should be absorbed; an
exception ends the loop, and with it the server.
-/

namespace SwitchPaxos.KeyValue

open Python (Value Key Objects ascii)

abbrev Db (ο : Type) [DecidableEq ο] : Type := Dict (Key ο) (Value ο)

variable {ο : Type} [DecidableEq ο] [Objects ο]

abbrev Handler (ο : Type) [DecidableEq ο] (α : Type) : Type :=
  SwitchPaxos.Handler (Db ο) Datagram Error α

/-- Forwards calls of functions based on a key. -/
structure Dispatcher (ο φ : Type) [DecidableEq ο] where
  dispatchTable : Dict (Key ο) φ
  defaultDispatch : φ

/-- A function as `dispatch` calls it, with any number of arguments. -/
abbrev Function (ο : Type) [DecidableEq ο] : Type :=
  List (Value ο) → Handler ο (Value ο)

namespace Dispatcher

def lookup {φ : Type} (key : Value ο) (self : Dispatcher ο φ) :
    Handler ο φ := do
  let key ← Handler.ofOption .hash key.key
  return (self.dispatchTable.lookup key).getD self.defaultDispatch

def dispatch (key : Value ο) (args : List (Value ο))
    (self : Dispatcher ο (Function ο)) : Handler ο (Value ο) := do
  let func ← self.lookup key
  func args

end Dispatcher

namespace KeyValueServer

def put (key value : Value ο) : Handler ο (Value ο) := do
  let key ← Handler.ofOption .hash key.key
  Handler.modify fun db => db.insert key value
  return .none

def get (key : Value ο) : Handler ο (Value ο) := do
  let key ← Handler.ofOption .hash key.key
  let db ← Handler.get
  -- `None` for a KeyError
  return (db.lookup key).getD .none

def pingReply : Value ο := .str (ascii "Ping reply")

def invalid : Value ο := .str (ascii "Invalid command")

/-- A call of `get`; another number of arguments is a `TypeError`. -/
def callGet : Function ο
  | [key] => get key
  | _ => Handler.raise .arguments

def callPing : Function ο
  | [] => pure pingReply
  | _ => Handler.raise .arguments

def callPut : Function ο
  | [key, value] => put key value
  | _ => Handler.raise .arguments

def unknown : Function ο := fun _ => pure invalid

def dispatcher : Dispatcher ο (Function ο) where
  dispatchTable := Dict.display
    [(.str getCommand, callGet), (.str pingCommand, callPing),
      (.str putCommand, callPut)]
  defaultDispatch := unknown

/-- `str` of a value for the log; all that matters is whether it raises. -/
def str (value : Value ο) : Handler ο Unit :=
  Handler.require .str value.prints

/-- The log leaves `None` out. -/
def strResult : Value ο → Handler ο Unit
  | .none => pure ()
  | result => str result

-- Which messages the socket takes: it raises for one that is too long.
variable (pickle : Pickle ο) (takes : Datagram → Bool)

def sendto (datagram : Datagram) : Handler ο Unit := do
  Handler.require .sendto (takes datagram)
  Handler.emit datagram

/-- What the loop of `serve` does with a message. -/
def handle (datagram : Datagram) : Handler ο Unit := do
  -- The debug log has the message in it.
  let message ← Handler.ofOption .loads (pickle.loads datagram.data)
  str message
  let (command, data) ← Handler.ofOption .unpack
    (pickle.parse datagram.data).unpack
  let args ← Handler.ofOption .iter data.iter
  let result ← dispatcher.dispatch command args
  let response ← Handler.ofOption .dumps (pickle.response result)
  sendto takes { datagram with data := response }
  -- The info log has the arguments and the result in it.
  let _ ← dispatcher.lookup command
  Handler.forEach str args
  strResult result

def serve (datagrams : List Datagram) : Handler ο Unit :=
  Handler.forEach (fun datagram => handle pickle takes (recv datagram))
    datagrams

/-- Whether the dictionary takes the key of a request. -/
def Hashable : Request ο → Bool
  | .get key => key.key.isSome
  | .put key _ => key.key.isSome
  | .ping => true

/-- The reply to a request, or to a message that is none. -/
def reply : Option (Request ο) → Db ο → Value ο
  | some (.get key), db => (key.key.bind db.lookup).getD .none
  | some (.put _ _), _ => .none
  | some .ping, _ => pingReply
  | none, _ => invalid

/-- The database after a request. -/
def carryOut : Option (Request ο) → Db ο → Db ο
  | some (.put key value), db =>
      match key.key with
      | some key => db.insert key value
      | none => db
  | _, db => db

def Known (command : Key ο) : Prop :=
  command = .str getCommand ∨ command = .str putCommand ∨
    command = .str pingCommand

/-- The dispatched function takes the arguments. -/
def Accepted (command : Key ο) (args : List (Value ο)) : Prop :=
  match Request.ofCommand command args with
  | some request => Hashable request
  | none => ¬ Known command

instance (command : Key ο) : Decidable (Known command) :=
  inferInstanceAs (Decidable (_ ∨ _ ∨ _))

instance (command : Key ο) (args : List (Value ο)) :
    Decidable (Accepted command args) :=
  match found : Request.ofCommand command args with
  | some request =>
      decidable_of_iff (Hashable request) (by simp [Accepted, found])
  | none => decidable_of_iff (¬ Known command) (by simp [Accepted, found])

variable {pickle} {takes} {command : Value ο} {key : Key ο}
  {args : List (Value ο)}

theorem lookup_dispatchTable (key : Key ο) :
    dispatcher.dispatchTable.lookup key =
      if key = .str putCommand then some callPut
      else if key = .str pingCommand then some callPing
      else if key = .str getCommand then some callGet
      else none := by
  simp only [dispatcher, Dict.display, List.foldl_cons, List.foldl_nil,
    Dict.lookup_insert_eq, AList.lookup_empty]

theorem lookup_of_key (hashed : command.key = some key) (db : Db ο) :
    dispatcher.lookup command db =
      ⟨.ok ((dispatcher.dispatchTable.lookup key).getD unknown), db, []⟩ := by
  simp [Dispatcher.lookup, hashed]
  rfl

theorem dispatch_eq (hashed : command.key = some key) (db : Db ο) :
    dispatcher.dispatch command args db =
      (dispatcher.dispatchTable.lookup key).getD unknown args db := by
  simp [Dispatcher.dispatch, lookup_of_key hashed]

/-- What a request stores under a key, if it stores anything there. -/
def stores (key : Key ο) : Option (Request ο) → Option (Value ο)
  | some (.put name value) => if name.key = some key then some value else none
  | _ => none

theorem lookup_carryOut (request : Option (Request ο)) (db : Db ο)
    (key : Key ο) :
    (carryOut request db).lookup key =
      (stores key request).or (db.lookup key) := by
  match request with
  | none => rfl
  | some .ping => rfl
  | some (.get _) => rfl
  | some (.put name value) =>
      cases hashed : name.key with
      | none => simp [carryOut, stores, hashed]
      | some filed =>
          simp only [carryOut, stores, hashed, Dict.lookup_insert_eq,
            Option.some.injEq]
          by_cases same : filed = key
          · simp [same]
          · simp [same, Ne.symm same]

/-- A function carries out the requests its arguments make, or raises before it
did anything. -/
def CarriesOut (function : Function ο)
    (parsed : List (Value ο) → Option (Request ο)) : Prop :=
  ∀ args db,
    match parsed args with
    | some request =>
        function args db =
          if Hashable request then
            ⟨.ok (reply (some request) db), carryOut (some request) db, []⟩
          else ⟨.error .hash, db, []⟩
    | none => function args db = ⟨.error .arguments, db, []⟩

theorem callGet_carriesOut :
    CarriesOut (callGet : Function ο) Request.ofGet := by
  intro args db
  match args with
  | [] => rfl
  | [key] =>
      cases hashed : key.key with
      | none => simp [Request.ofGet, callGet, get, Hashable, hashed]
      | some filed =>
          simp [Request.ofGet, callGet, get, Hashable, reply, carryOut, hashed]
  | _ :: _ :: _ => rfl

theorem callPut_carriesOut :
    CarriesOut (callPut : Function ο) Request.ofPut := by
  intro args db
  match args with
  | [] => rfl
  | [_] => rfl
  | [key, value] =>
      cases hashed : key.key with
      | none => simp [Request.ofPut, callPut, put, Hashable, hashed]
      | some filed =>
          simp [Request.ofPut, callPut, put, Hashable, reply, carryOut, hashed]
  | _ :: _ :: _ :: _ => rfl

theorem callPing_carriesOut :
    CarriesOut (callPing : Function ο) Request.ofPing := by
  intro args db
  cases args with
  | nil => rfl
  | cons _ _ => rfl

/-- What a dispatched function does: it takes its arguments, or it raises before
it did anything. -/
def Dispatched (key : Key ο) (args : List (Value ο)) (db : Db ο)
    (outcome : Outcome (Db ο) Datagram Error (Value ο)) : Prop :=
  let request := Request.ofCommand key args
  (Accepted key args ∧
      outcome = ⟨.ok (reply request db), carryOut request db, []⟩) ∨
    (¬ Accepted key args ∧ ∃ error, outcome = ⟨.error error, db, []⟩)

theorem CarriesOut.dispatched {function : Function ο}
    {parsed : List (Value ο) → Option (Request ο)}
    (carriesOut : CarriesOut function parsed) (known : Known key)
    (parses : Request.ofCommand key args = parsed args) (db : Db ο) :
    Dispatched key args db (function args db) := by
  have spec := carriesOut args db
  unfold Dispatched Accepted
  rw [parses]
  cases found : parsed args with
  | none =>
      rw [found] at spec
      exact .inr ⟨fun unknown => unknown known, _, spec⟩
  | some request =>
      rw [found] at spec
      dsimp only at spec
      by_cases hashable : Hashable request
      · rw [if_pos hashable] at spec
        exact .inl ⟨hashable, spec⟩
      · rw [if_neg hashable] at spec
        exact .inr ⟨hashable, _, spec⟩

theorem dispatch_dispatched (hashed : command.key = some key) (db : Db ο) :
    Dispatched key args db (dispatcher.dispatch command args db) := by
  have names : getCommand ≠ putCommand ∧ getCommand ≠ pingCommand ∧
      putCommand ≠ pingCommand := by decide
  obtain ⟨notPut, notPing, different⟩ := names
  rw [dispatch_eq hashed, lookup_dispatchTable]
  by_cases isGet : key = .str getCommand
  · subst isGet
    simp only [Key.str.injEq, notPut, notPing, if_false, if_true,
      Option.getD_some]
    exact callGet_carriesOut.dispatched (.inl rfl) rfl db
  by_cases isPut : key = .str putCommand
  · subst isPut
    simp only [if_true, Option.getD_some]
    refine callPut_carriesOut.dispatched (.inr (.inl rfl)) ?_ db
    simp [Request.ofCommand, notPut.symm]
  by_cases isPing : key = .str pingCommand
  · subst isPing
    simp only [isPut, if_false, if_true, Option.getD_some]
    refine callPing_carriesOut.dispatched (.inr (.inr rfl)) ?_ db
    simp [Request.ofCommand, notPing.symm, different.symm]
  · have parsed : Request.ofCommand key args = none := by
      simp [Request.ofCommand, isGet, isPut, isPing]
    simp only [isGet, isPut, isPing, if_false, Option.getD_none]
    refine .inl ⟨?_, ?_⟩
    · rw [Accepted, parsed]
      simp [Known, isGet, isPut, isPing]
    · rw [parsed]
      rfl

/-- The debug log takes the message. -/
def Logged (pickle : Pickle ο) (data : Bytes) : Prop :=
  ∃ message, pickle.loads data = some message ∧ message.prints

/-- The message comes as far as to a reply. -/
def Answered (pickle : Pickle ο) (data : Bytes) : Prop :=
  Logged pickle data ∧
    ∃ key args, pickle.call data = some (key, args) ∧ Accepted key args

/-- `pickle` writes the reply, and the socket takes the response. -/
def Sends (pickle : Pickle ο) (takes : Datagram → Bool) (datagram : Datagram)
    (value : Value ο) : Bool :=
  (pickle.response value).any fun data => takes { datagram with data }

/-- The response to a message, if there is one. -/
def answer (pickle : Pickle ο) (datagram : Datagram) (db : Db ο) :
    List Datagram :=
  (pickle.response (reply (pickle.request datagram.data) db)).toList.map
    fun data => { datagram with data }

theorem str_apply (value : Value ο) (db : Db ο) :
    str value db =
      ⟨if value.prints then .ok () else .error .str, db, []⟩ :=
  Handler.require_apply Error.str value.prints db

theorem forEach_str (args : List (Value ο)) (db : Db ο) :
    Handler.forEach str args db =
      ⟨if ∀ arg ∈ args, arg.prints then .ok () else .error .str, db, []⟩ := by
  induction args with
  | nil => simp [Handler.forEach]
  | cons arg args induction =>
      by_cases prints : arg.prints
      · simp [Handler.forEach, str_apply, prints, induction]
      · simp [Handler.forEach, str_apply, prints]

theorem strResult_apply (result : Value ο) (db : Db ο) :
    strResult result db =
      ⟨if result.prints then .ok () else .error .str, db, []⟩ := by
  cases result with
  | none => rfl
  | _ => exact str_apply _ db

omit [Objects ο] in
private theorem respond_apply (datagram : Datagram) (value : Value ο)
    (next : Handler ο Unit) (db : Db ο) :
    ((Handler.ofOption .dumps (pickle.response value) : Handler ο Bytes) >>=
      fun data => sendto takes { datagram with data } >>= fun _ => next) db =
      if Sends pickle takes datagram value then
        (next db).after ((pickle.response value).toList.map
          fun data => { datagram with data })
      else
        ⟨.error (if (pickle.response value).isSome then .sendto else .dumps),
          db, []⟩ := by
  cases written : pickle.response value with
  | none => simp [Sends, written]
  | some data =>
      cases taken : takes { datagram with data } with
      | true => simp [Sends, written, taken, sendto, Handler.require_apply]
      | false => simp [Sends, written, taken, sendto, Handler.require_apply]

theorem call_eq_some {data : Bytes} :
    pickle.call data = some (key, args) ↔
      ∃ command body, (pickle.parse data).unpack = some (command, body) ∧
        command.key = some key ∧ body.iter = some args := by
  simp [Pickle.call, Option.bind_eq_some_iff]

/-- Handling a message that comes as far as to a reply: the response may be
refused, or what is logged of it after that. -/
theorem handle_of_accepted {datagram : Datagram}
    (logged : Logged pickle datagram.data)
    (called : pickle.call datagram.data = some (key, args))
    (accepted : Accepted key args) (db : Db ο) :
    let request := pickle.request datagram.data
    let outcome := handle pickle takes datagram db
    (Sends pickle takes datagram (reply request db) = true ∧
      outcome.state = carryOut request db ∧
      outcome.effects = answer pickle datagram db ∧
      (outcome.result = .ok () ↔
        (∀ arg ∈ args, arg.prints) ∧ (reply request db).prints)) ∨
    (Sends pickle takes datagram (reply request db) = false ∧
      ∃ error, outcome = ⟨.error error, carryOut request db, []⟩) := by
  obtain ⟨message, loads, prints⟩ := logged
  obtain ⟨command, body, unpacked, hashed, iter⟩ := call_eq_some.mp called
  have request : pickle.request datagram.data =
      Request.ofCommand key args := by
    simp [Pickle.request, called]
  obtain ⟨-, dispatched⟩ | ⟨refused, -⟩ :=
    (dispatch_dispatched hashed db :
      Dispatched key args db (dispatcher.dispatch command args db))
  · have reached : handle pickle takes datagram db =
        ((Handler.ofOption .dumps
          (pickle.response (reply (Request.ofCommand key args) db)) :
            Handler ο Bytes) >>= fun data =>
          sendto takes { datagram with data } >>= fun _ =>
            dispatcher.lookup command >>= fun _ =>
              Handler.forEach str args >>= fun _ =>
                strResult (reply (Request.ofCommand key args) db))
          (carryOut (Request.ofCommand key args) db) := by
      simp only [handle, Handler.bind_apply, loads, unpacked, iter,
        Handler.ofOption_some, str_apply, prints, if_true, Outcome.andThen_ok,
        dispatched, Outcome.after_nil]
    rw [respond_apply] at reached
    simp only [request, answer]
    cases sends : Sends pickle takes datagram
        (reply (Request.ofCommand key args) db) with
    | false =>
        rw [sends, if_neg Bool.false_ne_true] at reached
        exact .inr ⟨rfl, _, reached⟩
    | true =>
        rw [sends, if_pos rfl] at reached
        simp only [Handler.bind_apply, lookup_of_key hashed, forEach_str,
          Outcome.andThen_ok, Outcome.after_nil] at reached
        refine .inl ⟨rfl, ?_⟩
        by_cases all : ∀ arg ∈ args, arg.prints
        · rw [if_pos all] at reached
          simp only [strResult_apply, Outcome.andThen_ok, Outcome.after_mk,
            List.append_nil] at reached
          rw [reached]
          refine ⟨rfl, rfl, fun printed => ⟨all, ?_⟩,
            fun printed => if_pos printed.2⟩
          by_contra silent
          dsimp only at printed
          rw [if_neg silent] at printed
          cases printed
        · rw [if_neg all] at reached
          rw [reached]
          simp [all]
  · exact absurd accepted refused

/-- A message that does not come as far as to a reply ends the loop and leaves
the database. -/
theorem handle_of_not_answered {datagram : Datagram}
    (refused : ¬ Answered pickle datagram.data) (db : Db ο) :
    ∃ error, handle pickle takes datagram db = ⟨.error error, db, []⟩ := by
  rcases Option.eq_none_or_eq_some (pickle.loads datagram.data) with
    loads | ⟨message, loads⟩
  · exact ⟨.loads, by simp [handle, loads]⟩
  by_cases prints : message.prints
  case neg =>
    exact ⟨.str, by simp [handle, loads, str_apply, prints]⟩
  rcases Option.eq_none_or_eq_some (pickle.parse datagram.data).unpack with
    unpacked | ⟨⟨command, body⟩, unpacked⟩
  · exact ⟨.unpack, by simp [handle, loads, str_apply, prints, unpacked]⟩
  rcases Option.eq_none_or_eq_some body.iter with iter | ⟨args, iter⟩
  · exact ⟨.iter, by simp [handle, loads, str_apply, prints, unpacked, iter]⟩
  rcases Option.eq_none_or_eq_some command.key with hashed | ⟨key, hashed⟩
  · exact ⟨.hash, by
      simp [handle, loads, str_apply, prints, unpacked, iter,
        Dispatcher.dispatch, Dispatcher.lookup, hashed]⟩
  obtain ⟨accepted, -⟩ | ⟨-, error, dispatched⟩ :=
    (dispatch_dispatched hashed db :
      Dispatched key args db (dispatcher.dispatch command args db))
  · have called : pickle.call datagram.data = some (key, args) :=
      call_eq_some.mpr ⟨command, body, unpacked, hashed, iter⟩
    exact absurd ⟨⟨message, loads, prints⟩, key, args, called, accepted⟩ refused
  · exact ⟨error, by
      simp [handle, loads, str_apply, prints, unpacked, iter, dispatched]⟩

end KeyValueServer

end SwitchPaxos.KeyValue
