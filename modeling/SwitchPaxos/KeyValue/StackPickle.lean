import SwitchPaxos.KeyValue.Message

/-!
# A pickle without loss

A pickle is a program for a stack machine, which builds the value.  This one
is for values of built-in types.  It uses the opcodes of Python for `None`,
booleans and collections, and simpler ones for numbers and texts.
-/

namespace SwitchPaxos.KeyValue.StackPickle

open Python (Value)

/-- Values, and marks where collections begin. -/
abbrev Stack : Type := List (Option (Value Empty))

inductive Opcode where
  | mark
  | stop
  | none
  | newtrue
  | newfalse
  | zero
  | successor
  | negative
  | string
  | unicode
  | tuple
  | list
  | dict
deriving DecidableEq

def Opcode.byte : Opcode → UInt8
  | .mark => 0x28
  | .stop => 0x2E
  | .none => 0x4E
  | .newtrue => 0x88
  | .newfalse => 0x89
  | .zero => 0x49
  | .successor => 0x2B
  | .negative => 0x2D
  | .string => 0x53
  | .unicode => 0x56
  | .tuple => 0x74
  | .list => 0x6C
  | .dict => 0x64

def Opcode.ofByte (byte : UInt8) : Option Opcode :=
  [mark, stop, none, newtrue, newfalse, zero, successor, negative, string,
    unicode, tuple, list, dict].find? fun opcode => opcode.byte = byte

theorem Opcode.ofByte_byte (opcode : Opcode) :
    ofByte opcode.byte = some opcode := by
  cases opcode <;> decide

inductive Machine where
  | running (stack : Stack)
  -- In a text, where a backslash stands before each character
  | text (bytes : Bytes) (stack : Stack)
  | escaped (bytes : Bytes) (stack : Stack)
  | stopped (value : Value Empty)
  | failed

def quote : UInt8 := 0x27

def backslash : UInt8 := 0x5C

/-- The values above the last mark. -/
def popMark : List (Value Empty) → Stack →
    Option (List (Value Empty) × Stack)
  | _, [] => none
  | items, none :: stack => some (items, stack)
  | items, some value :: stack => popMark (value :: items) stack

def pairs : List (Value Empty) → Option (List (Value Empty × Value Empty))
  | [] => some []
  | [_] => none
  | key :: value :: values => do return (key, value) :: (← pairs values)

def numbers : List (Value Empty) → Option (List ℕ)
  | [] => some []
  | .int n :: values => do return n.toNat :: (← numbers values)
  | _ => none

def toUnicode (items : List (Value Empty)) : Option (Value Empty) :=
  (numbers items).map .unicode

def toTuple (items : List (Value Empty)) : Option (Value Empty) :=
  some (.tuple items)

def toList (items : List (Value Empty)) : Option (Value Empty) :=
  some (.list items)

def toDict (items : List (Value Empty)) : Option (Value Empty) :=
  (pairs items).map .dict

/-- The values above the last mark become one value. -/
def collect (build : List (Value Empty) → Option (Value Empty))
    (stack : Stack) : Machine :=
  match popMark [] stack with
  | none => .failed
  | some (items, rest) =>
      match build items with
      | none => .failed
      | some value => .running (some value :: rest)

def perform : Opcode → Stack → Machine
  | .mark, stack => .running (none :: stack)
  | .none, stack => .running (some .none :: stack)
  | .newtrue, stack => .running (some (.bool true) :: stack)
  | .newfalse, stack => .running (some (.bool false) :: stack)
  | .zero, stack => .running (some (.int 0) :: stack)
  | .successor, some (.int n) :: stack =>
      .running (some (.int (n + 1)) :: stack)
  | .negative, some (.int n) :: stack =>
      .running (some (.int (-(n + 1))) :: stack)
  | .string, stack => .text [] stack
  | .unicode, stack => collect toUnicode stack
  | .tuple, stack => collect toTuple stack
  | .list, stack => collect toList stack
  | .dict, stack => collect toDict stack
  | .stop, [some value] => .stopped value
  | _, _ => .failed

def step : Machine → UInt8 → Machine
  | .running stack, byte =>
      match Opcode.ofByte byte with
      | some opcode => perform opcode stack
      | none => .failed
  | .text bytes stack, byte =>
      if byte = backslash then .escaped bytes stack
      else if byte = quote then .running (some (.str bytes) :: stack)
      else .failed
  | .escaped bytes stack, byte => .text (bytes ++ [byte]) stack
  | _, _ => .failed

def run (machine : Machine) (data : Bytes) : Machine := data.foldl step machine

def loads (data : Bytes) : Option (Value Empty) :=
  match run (.running []) data with
  | .stopped value => some value
  | _ => none

def saveNat (n : ℕ) : Bytes :=
  Opcode.zero.byte :: List.replicate n Opcode.successor.byte

mutual

def save : Value Empty → Bytes
  | .none => [Opcode.none.byte]
  | .bool b => [if b then Opcode.newtrue.byte else Opcode.newfalse.byte]
  | .int (.ofNat n) => saveNat n
  | .int (.negSucc n) => saveNat n ++ [Opcode.negative.byte]
  | .str bytes =>
      Opcode.string.byte ::
        (bytes.flatMap fun byte => [backslash, byte]) ++ [quote]
  | .unicode units =>
      Opcode.mark.byte :: units.flatMap saveNat ++ [Opcode.unicode.byte]
  | .tuple items => Opcode.mark.byte :: saveItems items ++ [Opcode.tuple.byte]
  | .list items => Opcode.mark.byte :: saveItems items ++ [Opcode.list.byte]
  | .dict entries =>
      Opcode.mark.byte :: saveEntries entries ++ [Opcode.dict.byte]
  | .object inst => nomatch inst

def saveItems : List (Value Empty) → Bytes
  | [] => []
  | value :: values => save value ++ saveItems values

def saveEntries : List (Value Empty × Value Empty) → Bytes
  | [] => []
  | (key, value) :: entries => save key ++ save value ++ saveEntries entries

end

def dumps (value : Value Empty) : Bytes := save value ++ [Opcode.stop.byte]

def pickle : Pickle Empty := ⟨fun value => some (dumps value), loads⟩

theorem run_append (machine : Machine) (first second : Bytes) :
    run machine (first ++ second) = run (run machine first) second :=
  List.foldl_append

theorem run_opcode (opcode : Opcode) (stack : Stack) (data : Bytes) :
    run (.running stack) (opcode.byte :: data) =
      run (perform opcode stack) data := by
  simp [run, step, Opcode.ofByte_byte]

theorem run_saveNat (n : ℕ) (stack : Stack) :
    run (.running stack) (saveNat n) = .running (some (.int n) :: stack) := by
  induction n with
  | zero => exact run_opcode .zero stack []
  | succ n induction =>
      have more : saveNat (n + 1) = saveNat n ++ [Opcode.successor.byte] := by
        rw [saveNat, saveNat, List.replicate_succ', List.cons_append]
      rw [more, run_append, induction, run_opcode]
      rfl

theorem run_text (bytes before : Bytes) (stack : Stack) :
    run (.text before stack) (bytes.flatMap fun byte => [backslash, byte]) =
      .text (before ++ bytes) stack := by
  induction bytes generalizing before with
  | nil => simp [run]
  | cons byte bytes induction =>
      have first : run (.text before stack) [backslash, byte] =
          .text (before ++ [byte]) stack := rfl
      rw [List.flatMap_cons, run_append, first, induction, List.append_assoc]
      rfl

theorem run_units (units : List ℕ) (stack : Stack) :
    run (.running stack) (units.flatMap saveNat) =
      .running ((units.map fun n => some (.int n)).reverse ++ stack) := by
  induction units generalizing stack with
  | nil => rfl
  | cons n units induction =>
      rw [List.flatMap_cons, run_append, run_saveNat, induction]
      simp

theorem popMark_marked (values items : List (Value Empty)) (stack : Stack) :
    popMark items ((values.map some).reverse ++ none :: stack) =
      some (values ++ items, stack) := by
  induction values using List.reverseRecOn generalizing items with
  | nil => rfl
  | append_singleton values value induction =>
      simp [popMark, induction]

theorem collect_marked {build : List (Value Empty) → Option (Value Empty)}
    {values : List (Value Empty)} {value : Value Empty} (stack : Stack)
    (built : build values = some value) :
    collect build ((values.map some).reverse ++ none :: stack) =
      .running (some value :: stack) := by
  simp [collect, popMark_marked, built]

theorem numbers_units (units : List ℕ) :
    numbers (units.map fun n : ℕ => .int n) = some units := by
  induction units with
  | nil => rfl
  | cons n units induction => simp [numbers, induction]

/-- The keys and values of a dictionary, one after the other. -/
def flat (entries : List (Value Empty × Value Empty)) : List (Value Empty) :=
  entries.flatMap fun entry => [entry.1, entry.2]

theorem pairs_flat (entries : List (Value Empty × Value Empty)) :
    pairs (flat entries) = some entries := by
  induction entries with
  | nil => rfl
  | cons entry entries induction =>
      have rest : pairs (entries.flatMap fun entry => [entry.1, entry.2]) =
          some entries := induction
      simp [flat, pairs, rest]

mutual

theorem run_save (value : Value Empty) (stack : Stack) :
    run (.running stack) (save value) = .running (some value :: stack) := by
  cases value with
  | none => exact run_opcode .none stack []
  | bool b =>
      cases b with
      | false => exact run_opcode .newfalse stack []
      | true => exact run_opcode .newtrue stack []
  | int n =>
      cases n with
      | ofNat n => exact run_saveNat n stack
      | negSucc n =>
          rw [save, run_append, run_saveNat, run_opcode]
          rfl
  | str bytes =>
      rw [save, List.cons_append, run_opcode, perform, run_append, run_text]
      rfl
  | unicode units =>
      have built : toUnicode (units.map fun n : ℕ => .int n) =
          some (.unicode units) := by
        rw [toUnicode, numbers_units]
        rfl
      rw [save, List.cons_append, run_opcode, perform, run_append, run_units,
        run_opcode, ← collect_marked stack built, List.map_map]
      rfl
  | tuple items =>
      have built : toTuple items = some (.tuple items) := rfl
      rw [save, List.cons_append, run_opcode, perform, run_append,
        run_saveItems, run_opcode]
      exact collect_marked stack built
  | list items =>
      have built : toList items = some (.list items) := rfl
      rw [save, List.cons_append, run_opcode, perform, run_append,
        run_saveItems, run_opcode]
      exact collect_marked stack built
  | dict entries =>
      have built : toDict (flat entries) = some (.dict entries) := by
        rw [toDict, pairs_flat]
        rfl
      rw [save, List.cons_append, run_opcode, perform, run_append,
        run_saveEntries, run_opcode]
      exact collect_marked stack built
  | object inst => exact inst.elim

theorem run_saveItems (items : List (Value Empty)) (stack : Stack) :
    run (.running stack) (saveItems items) =
      .running ((items.map some).reverse ++ stack) := by
  cases items with
  | nil => rfl
  | cons value values =>
      rw [saveItems, run_append, run_save value, run_saveItems values]
      simp

theorem run_saveEntries (entries : List (Value Empty × Value Empty))
    (stack : Stack) :
    run (.running stack) (saveEntries entries) =
      .running (((flat entries).map some).reverse ++ stack) := by
  cases entries with
  | nil => rfl
  | cons entry entries =>
      obtain ⟨key, value⟩ := entry
      rw [saveEntries, run_append, run_append, run_save key, run_save value,
        run_saveEntries entries]
      simp [flat]

end

theorem run_failed (data : Bytes) : run .failed data = .failed := by
  induction data with
  | nil => rfl
  | cons byte data induction => exact induction

theorem not_stopped {start : Machine} {first second : Bytes} {stack : Stack}
    (goesOn : run start (first ++ second) = .running stack)
    (value : Value Empty) : run start first ≠ .stopped value := by
  intro stopped
  rw [run_append, stopped] at goesOn
  cases second with
  | nil => cases goesOn
  | cons byte second =>
      have failed : run (.stopped value) (byte :: second) = .failed :=
        run_failed second
      rw [failed] at goesOn
      cases goesOn

theorem loads_dumps (value : Value Empty) :
    loads (dumps value) = some value := by
  have saved : run (.running []) (dumps value) = .stopped value := by
    rw [dumps, run_append, run_save, run_opcode]
    rfl
  simp [loads, saved]

theorem loads_take {value : Value Empty} {length : ℕ}
    (short : length < (dumps value).length) :
    loads ((dumps value).take length) = none := by
  have bound : length ≤ (save value).length := by
    simp [dumps] at short
    omega
  have part : (dumps value).take length = (save value).take length :=
    List.take_append_of_le_length bound
  have goesOn := run_save value []
  rw [← List.take_append_drop length (save value)] at goesOn
  have going := not_stopped goesOn
  rw [part, loads]
  split
  · next found stopped => exact absurd stopped (going found)
  · rfl

theorem lossless : pickle.Lossless := by
  constructor
  rintro value _ ⟨⟩
  exact loads_dumps value

end SwitchPaxos.KeyValue.StackPickle
