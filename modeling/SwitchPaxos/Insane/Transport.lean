import SwitchPaxos.Base.Python
import SwitchPaxos.Insane.Members

/-!
# Messages as datagrams

`PaxosSender` pickles a message as a tuple of its command and its arguments.
`PaxosReceiver` looks the command up in a table and calls the method it finds
there with the arguments.  Anyone may send anything, so that this can fail.
-/

namespace SwitchPaxos.Insane

open Python (Value Key ascii)

variable {V : Type}

/-- `dumps` and `loads`.  Values of built-in types can all be written. -/
structure Pickle where
  dumps : Value Empty → Bytes
  loads : Bytes → Option (Value Empty)

/-- What was written is read back, and nothing is read of a text that breaks
off. -/
structure Pickle.Lossless (pickle : Pickle) : Prop where
  loads_dumps : ∀ value, pickle.loads (pickle.dumps value) = some value
  loads_take : ∀ value length, length < (pickle.dumps value).length →
    pickle.loads ((pickle.dumps value).take length) = none

/-- The commands of the dispatch table. -/
inductive Command where
  | accept
  | learn
  | ping
  | pingReply
  | prepare
  | promise
  | shutdown
  | trust
  | trustValue
deriving DecidableEq

namespace Command

def text : Command → Bytes
  | accept => ascii "accept"
  | learn => ascii "learn"
  | ping => ascii "ping"
  | pingReply => ascii "ping-reply"
  | prepare => ascii "prepare"
  | promise => ascii "promise"
  | shutdown => ascii "shutdown"
  | trust => ascii "trust"
  | trustValue => ascii "trust-value"

def ofKey (key : Key Empty) : Option Command :=
  [accept, learn, ping, pingReply, prepare, promise, shutdown, trust,
    trustValue].find? fun command => key = .str command.text

theorem ofKey_text (command : Command) :
    ofKey (.str command.text) = some command := by
  cases command <;> decide

end Command

/-- How values are written; what is no value cannot be read as one. -/
structure Format (V : Type) where
  write : Option V → Value Empty
  read : Value Empty → Option (Option V)
  read_write : ∀ v, read (write v) = some v

/-- The values are numbers. -/
def Format.numbers : Format ℕ where
  write
    | none => .none
    | some n => .int n
  read
    | .none => some none
    | .int (.ofNat n) => some (some n)
    | _ => none
  read_write v := by cases v <;> rfl

/-- Rounds, and `None` where there was none. -/
def writeRound : Option ℕ → Value Empty := Format.numbers.write

def readRound : Value Empty → Option (Option ℕ) := Format.numbers.read

def readNumber : Value Empty → Option ℕ
  | .int (.ofNat n) => some n
  | _ => none

namespace Message

def command : Message V → Command
  | .prepare _ => .prepare
  | .promise _ _ _ => .promise
  | .accept _ _ => .accept
  | .learn _ _ => .learn
  | .trust _ => .trust
  | .trustValue _ _ => .trustValue

def args (format : Format V) : Message V → List (Value Empty)
  | .prepare crnd => [.int crnd]
  | .promise rnd vrnd vval => [.int rnd, writeRound vrnd, format.write vval]
  | .accept crnd cval => [.int crnd, format.write cval]
  | .learn rnd vval => [.int rnd, format.write vval]
  | .trust c => [.int c]
  | .trustValue c value => [.int c, format.write value]

end Message

/-- The tuple of a command and its arguments. -/
def Command.tuple (command : Command) (args : List (Value Empty)) :
    Value Empty :=
  .tuple (.str command.text :: args)

def Message.write (format : Format V) (message : Message V) : Value Empty :=
  message.command.tuple (message.args format)

/-- What is to be done about a datagram. -/
inductive Call (V : Type) where
  -- A handler of the node is called
  | handle (message : Message V)
  -- It is called with something that is no round or no value
  | confused
  | ping (cookie : Value Empty)
  | pingReply (cookie : Value Empty)
  | shutdown
  | unknown
  | raises

def Call.ofMessage : Option (Message V) → Call V
  | some message => .handle message
  | none => .confused

/-- The methods take as many arguments as this; the cookie of a ping is written
to the log. -/
def Command.call (format : Format V) :
    Command → List (Value Empty) → Call V
  | .accept, [crnd, cval] => .ofMessage do
      return .accept (← readNumber crnd) (← format.read cval)
  | .learn, [rnd, vval] => .ofMessage do
      return .learn (← readNumber rnd) (← format.read vval)
  | .ping, [cookie] => if cookie.prints then .ping cookie else .raises
  | .pingReply, [cookie] =>
      if cookie.prints then .pingReply cookie else .raises
  | .prepare, [crnd] => .ofMessage do return .prepare (← readNumber crnd)
  | .promise, [rnd, vrnd, vval] => .ofMessage do
      return .promise (← readNumber rnd) (← readRound vrnd)
        (← format.read vval)
  | .shutdown, [] => .shutdown
  | .trust, [c] => .ofMessage do return .trust (← readNumber c)
  | .trustValue, [c, value] => .ofMessage do
      return .trustValue (← readNumber c) (← format.read value)
  | _, _ => .raises

/-- The items of `message[1:]`. -/
def rest : Value Empty → Option (List (Value Empty))
  | .str bytes => some (bytes.tail.map fun byte => .str [byte])
  | .unicode units => some (units.tail.map fun unit => .unicode [unit])
  | .tuple items => some items.tail
  | .list items => some items.tail
  | _ => none

/-- The call of an unpickled message.  The message and its command are written
to the log, and the command is looked up in a dictionary. -/
def callOf (format : Format V) (message : Value Empty) : Option (Call V) := do
  guard message.prints
  let command ← message.getitem 0
  let args ← rest message
  guard command.prints
  let key ← command.key
  return match Command.ofKey key with
    | some command => command.call format args
    | none => .unknown

def bufferSize : ℕ := 1024

/-- What `receive` makes of a datagram. -/
def read (pickle : Pickle) (format : Format V) (data : Bytes) :
    Call V :=
  match pickle.loads (data.take bufferSize) with
  | some message => (callOf format message).getD .raises
  | none => .raises

mutual

theorem repr_eq_true (value : Value Empty) : value.repr = true := by
  cases value with
  | tuple items => exact reprItems_eq_true items
  | list items => exact reprItems_eq_true items
  | dict entries => exact reprEntries_eq_true entries
  | object inst => exact inst.elim
  | _ => rfl

theorem reprItems_eq_true (items : List (Value Empty)) :
    Value.reprItems items = true := by
  cases items with
  | nil => rfl
  | cons value items =>
      rw [Value.reprItems, repr_eq_true value, reprItems_eq_true items]
      rfl

theorem reprEntries_eq_true (entries : List (Value Empty × Value Empty)) :
    Value.reprEntries entries = true := by
  cases entries with
  | nil => rfl
  | cons entry entries =>
      obtain ⟨key, value⟩ := entry
      rw [Value.reprEntries, repr_eq_true key, repr_eq_true value,
        reprEntries_eq_true entries]
      rfl

end

@[simp] theorem readNumber_int (n : ℕ) : readNumber (.int n) = some n := rfl

@[simp] theorem readRound_writeRound (n : Option ℕ) :
    readRound (writeRound n) = some n :=
  Format.numbers.read_write n

attribute [simp] Format.read_write

theorem callOf_tuple (format : Format V) (command : Command)
    (args : List (Value Empty)) :
    callOf format (command.tuple args) = some (command.call format args) := by
  simp [callOf, Command.tuple, Value.getitem, rest, Value.prints, Value.repr,
    reprItems_eq_true, Value.key, Command.ofKey_text]

theorem call_message (format : Format V) (message : Message V) :
    message.command.call format (message.args format) = .handle message := by
  cases message <;>
    simp [Message.command, Message.args, Command.call, Call.ofMessage]

/-- A message either fits in the buffer, and is read as what it is, or cannot
be read. -/
theorem read_tuple {pickle : Pickle} (lossless : pickle.Lossless)
    (format : Format V) (command : Command) (args : List (Value Empty)) :
    read pickle format (pickle.dumps (command.tuple args)) =
        command.call format args ∨
      read pickle format (pickle.dumps (command.tuple args)) = .raises := by
  rcases Nat.lt_or_ge bufferSize (pickle.dumps (command.tuple args)).length
    with long | fits
  · right
    rw [read, lossless.loads_take _ _ long]
  · left
    rw [read, List.take_of_length_le fits, lossless.loads_dumps]
    simp [callOf_tuple]

theorem Command.text_inj {first second : Command}
    (same : first.text = second.text) : first = second := by
  have found := Command.ofKey_text first
  rw [same, Command.ofKey_text] at found
  exact (Option.some.inj found).symm

theorem key_tuple {command : Command} {args : List (Value Empty)}
    {cookie : Bytes} (same : (command.tuple args).key =
      (Command.pingReply.tuple [.str cookie]).key) :
    command = .pingReply ∧ ∃ value : Value Empty,
      args = [value] ∧ value.key = some (.str cookie) := by
  have item : ∀ values : List (Value Empty), Value.keyOfItems values =
      some (.item (.str cookie) .empty) →
        ∃ value : Value Empty, values = [value] ∧
          value.key = some (.str cookie) := by
    intro values keys
    cases values with
    | nil => cases keys
    | cons value values =>
        simp only [Value.keyOfItems, Option.bind_eq_bind,
          Option.bind_eq_some_iff, Option.pure_def, Option.some.injEq,
          Key.item.injEq] at keys
        obtain ⟨_, first, _, rest, rfl, rfl⟩ := keys
        refine ⟨value, ?_, first⟩
        cases values with
        | nil => rfl
        | cons other values =>
            simp [Value.keyOfItems, Option.bind_eq_some_iff] at rest
  simp only [Command.tuple, Value.key, Value.keyOfItems, Option.bind_eq_bind,
    Option.bind_some, Option.pure_def, Option.bind_eq_some_iff,
    Option.some.injEq, Key.item.injEq, Key.str.injEq] at same
  obtain ⟨_, keys, text, rfl⟩ := same
  exact ⟨Command.text_inj text, item args keys⟩

end SwitchPaxos.Insane
