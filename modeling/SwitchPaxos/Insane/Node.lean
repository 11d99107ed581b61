import SwitchPaxos.Base.Dict
import SwitchPaxos.Base.Handler
import SwitchPaxos.Base.Sorted
import Mathlib.Data.Prod.Lex
import Mathlib.Data.String.Basic
import Mathlib.Data.Sum.Order
import Mathlib.Order.WithBot

/-!
# A node of single-decree Paxos

`Node` takes all three roles: proposer, acceptor and learner.  Values can be
hashed, Python sorts them, and a message with one or two of them fits in a
datagram; `None` is one of them and comes before the others.  With such values
the handlers of the node never raise.
-/

namespace SwitchPaxos.Insane

/-- The address of a socket: an IP address and a port. -/
abbrev Address : Type := String × ℕ

/-- What `get_id` finds for an address: a node id or a text, and numbers come
before texts. -/
abbrev Ident : Type := ℕ ⊕ₗ String

/-- A member of `mv`: round, value and acceptor, compared in this order. -/
abbrev Triple (V : Type) : Type := WithBot ℕ ×ₗ WithBot V ×ₗ Ident

def triple (vrnd : Option ℕ) (vval : Option V) (a : Ident) : Triple V :=
  toLex ((vrnd : WithBot ℕ), toLex ((vval : WithBot V), a))

def Triple.vrnd (entry : Triple V) : Option ℕ := (ofLex entry).1

def Triple.vval (entry : Triple V) : Option V := (ofLex (ofLex entry).2).1

inductive Message (V : Type) where
  | prepare (crnd : ℕ)
  | promise (rnd : ℕ) (vrnd : Option ℕ) (vval : Option V)
  | accept (crnd : ℕ) (cval : Option V)
  | learn (rnd : ℕ) (vval : Option V)
  | trust (c : ℕ)
  | trustValue (c : ℕ) (value : Option V)
deriving DecidableEq

structure Packet (V : Type) where
  src : Address
  dst : Address
  message : Message V
deriving DecidableEq

/-- What a node does that others can observe; `accepted` is the log line of
`on_accept`. -/
inductive Effect (V : Type) where
  | sent (packet : Packet V)
  | accepted (crnd : ℕ) (vval : Option V)
deriving DecidableEq

structure Node (V : Type) where
  id : ℕ
  address : Address
  nodes : Dict ℕ Address
  -- learned values
  values : Dict ℕ (Option V)
  omega : Option Address
  -- Current round number
  rnd : ℕ
  -- Last voted round number, and the value voted for
  vrnd : Option ℕ
  vval : Option V
  crnd : Option ℕ
  mv : Finset (Triple V)
  -- The value we want to reach consensus for
  v : Option V

namespace Node

variable {V : Type}

abbrev Handler (V α : Type) : Type :=
  SwitchPaxos.Handler (Node V) (Effect V) Empty α

def new (id : ℕ) (nodes : Dict ℕ Address) (omega : Option Address)
    (address : Address) : Node V :=
  { id, address, nodes
    values := ∅
    -- Normalize 0.0.0.0
    omega := omega.map fun omega =>
      if omega.1 = "0.0.0.0" then ("127.0.0.1", omega.2) else omega
    rnd := 0
    vrnd := none
    vval := none
    crnd := none
    mv := ∅
    v := none }

def getId (sender : Address) (self : Node V) : Ident :=
  if some sender = self.omega then Sum.inrₗ "Ω"
  else
    match (self.nodes.keysOf sender).head? with
    | some nodeId => Sum.inlₗ nodeId
    | none => Sum.inrₗ (sender.1 ++ ":" ++ toString sender.2)

def send (dst : Address) (message : Message V) : Handler V Unit := do
  let self ← Handler.get
  Handler.emit (.sent ⟨self.address, dst, message⟩)

/-- Send a message to the addresses of all nodes. -/
def sendAll (message : Message V) : Handler V Unit := do
  let self ← Handler.get
  Handler.forEach (fun address => send address message) self.nodes.values

-- Phase 1b
def onPrepare (sender : Address) (crnd : ℕ) : Handler V Unit := do
  let self ← Handler.get
  if self.rnd < crnd then do
    Handler.modify fun self => { self with rnd := crnd }
    send sender (.promise crnd self.vrnd self.vval)
  else pure ()

-- Phase 2b
def onAccept (crnd : ℕ) (vval : Option V) : Handler V Unit := do
  let self ← Handler.get
  if self.rnd ≤ crnd ∧ self.vrnd ≠ some crnd then do
    Handler.modify fun self =>
      { self with rnd := crnd, vrnd := some crnd, vval }
    Handler.emit (.accepted crnd vval)
    sendAll (.learn crnd vval)
  else pure ()

def setvalue (value : Option V) : Handler V Unit :=
  Handler.modify fun self => { self with v := value }

/-- The round `pickNext` selects, larger than `crnd`. -/
def nextCrnd (self : Node V) : ℕ :=
  match self.crnd with
  | none => self.id
  | some crnd => crnd + self.nodes.keys.length

-- Phase 1a
def onTrust (c : ℕ) : Handler V Unit := do
  let self ← Handler.get
  if c = self.id then do
    Handler.modify fun self =>
      { self with crnd := some self.nextCrnd, mv := ∅ }
    sendAll (.prepare self.nextCrnd)
  else pure ()

def onTrustValue (c : ℕ) (value : Option V) : Handler V Unit := do
  setvalue value
  onTrust c

/-- Number of nodes that are allowed to fail. -/
def failureNodes (self : Node V) : ℕ := (self.nodes.keys.length - 1) / 2

def enoughPromises (self : Node V) : Prop :=
  self.mv.card = self.failureNodes + 1

def noPromisesWithValue (self : Node V) : Prop :=
  ∀ entry ∈ self.mv, entry.vrnd = none

instance (self : Node V) : Decidable self.enoughPromises :=
  inferInstanceAs (Decidable (_ = _))

instance (self : Node V) : Decidable self.noPromisesWithValue :=
  Finset.decidableDforallFinset

/-- `sorted(mv)[-1]`, for an `mv` that is not empty. -/
def pickLargest [LinearOrder V] (mv : Finset (Triple V)) : Option V :=
  match (sorted mv).getLast? with
  | some entry => entry.vval
  | none => none

/-- The value to propose. -/
def cval [LinearOrder V] (self : Node V) : Option V :=
  if self.noPromisesWithValue then self.v else pickLargest self.mv

-- Phase 2a
def onPromise [LinearOrder V] (sender : Address) (rnd : ℕ)
    (vrnd : Option ℕ) (vval : Option V) : Handler V Unit := do
  let self ← Handler.get
  if self.crnd = some rnd then do
    let a := self.getId sender
    Handler.modify fun self =>
      { self with mv := insert (triple vrnd vval a) self.mv }
    let self ← Handler.get
    if self.enoughPromises then sendAll (.accept rnd self.cval)
    else pure ()
  else pure ()

def onLearn (rnd : ℕ) (vval : Option V) : Handler V Unit := do
  let self ← Handler.get
  -- Have we learned this value before?
  if self.values.lookup rnd = none then
    Handler.modify fun self =>
      { self with values := self.values.insert rnd vval }
  else pure ()

/-- The dispatch table of `PaxosReceiver`. -/
def receive [LinearOrder V] (sender : Address) :
    Message V → Handler V Unit
  | .prepare crnd => onPrepare sender crnd
  | .promise rnd vrnd vval => onPromise sender rnd vrnd vval
  | .accept crnd cval => onAccept crnd cval
  | .learn rnd vval => onLearn rnd vval
  | .trust c => onTrust c
  | .trustValue c value => onTrustValue c value

/-- The packets of a message to all nodes. -/
def broadcast (self : Node V) (message : Message V) : List (Effect V) :=
  self.nodes.values.map fun dst => .sent ⟨self.address, dst, message⟩

theorem sendAll_apply (message : Message V) (self : Node V) :
    sendAll message self = ⟨.ok (), self, self.broadcast message⟩ := by
  simp only [sendAll, Handler.bind_apply, Handler.get_apply,
    Outcome.andThen_ok, Outcome.after_nil]
  exact Handler.forEach_emit _ _ _ _ fun _ _ => rfl

section Equations

variable (self : Node V) (sender : Address) (rnd : ℕ) (vrnd : Option ℕ)
  (vval : Option V)

theorem onPrepare_apply : onPrepare sender rnd self =
    if self.rnd < rnd then
      ⟨.ok (), { self with rnd },
        [.sent ⟨self.address, sender, .promise rnd self.vrnd self.vval⟩]⟩
    else ⟨.ok (), self, []⟩ := by
  simp only [onPrepare, Handler.bind_apply, Handler.get_apply,
    Outcome.andThen_ok, Outcome.after_nil, Handler.ite_apply]
  split <;> rfl

theorem onAccept_apply : onAccept rnd vval self =
    if self.rnd ≤ rnd ∧ self.vrnd ≠ some rnd then
      ⟨.ok (), { self with rnd, vrnd := some rnd, vval },
        .accepted rnd vval :: self.broadcast (.learn rnd vval)⟩
    else ⟨.ok (), self, []⟩ := by
  simp only [onAccept, Handler.bind_apply, Handler.get_apply,
    Outcome.andThen_ok, Outcome.after_nil, Handler.ite_apply,
    Handler.modify_apply, Handler.emit_apply, sendAll_apply]
  split <;> rfl

theorem onTrust_apply : onTrust self.id self =
    ⟨.ok (), { self with crnd := some self.nextCrnd, mv := ∅ },
      self.broadcast (.prepare self.nextCrnd)⟩ := by
  simp only [onTrust, Handler.bind_apply, Handler.get_apply,
    Outcome.andThen_ok, Outcome.after_nil, Handler.ite_apply,
    Handler.modify_apply, sendAll_apply, if_true]
  rfl

theorem onTrustValue_apply : onTrustValue self.id vval self =
    ⟨.ok (), { self with crnd := some self.nextCrnd, mv := ∅, v := vval },
      self.broadcast (.prepare self.nextCrnd)⟩ := by
  simp only [onTrustValue, setvalue, Handler.bind_apply, Handler.modify_apply,
    Outcome.andThen_ok, Outcome.after_nil]
  exact onTrust_apply { self with v := vval }

/-- The node once a promise was added to `mv`. -/
def withPromise [LinearOrder V] : Node V :=
  { self with mv := insert (triple vrnd vval (self.getId sender)) self.mv }

theorem onPromise_apply [LinearOrder V] : onPromise sender rnd vrnd vval self =
    if self.crnd = some rnd then
      ⟨.ok (), self.withPromise sender vrnd vval,
        if (self.withPromise sender vrnd vval).enoughPromises then
          self.broadcast
            (.accept rnd (self.withPromise sender vrnd vval).cval)
        else []⟩
    else ⟨.ok (), self, []⟩ := by
  simp only [onPromise, Handler.bind_apply, Handler.get_apply,
    Outcome.andThen_ok, Outcome.after_nil, Handler.ite_apply,
    Handler.modify_apply, sendAll_apply]
  split
  · change ite (self.withPromise sender vrnd vval).enoughPromises _ _ = _
    split <;> rfl
  · rfl

theorem onLearn_apply : onLearn rnd vval self =
    ⟨.ok (), if self.values.lookup rnd = none then
      { self with values := self.values.insert rnd vval } else self, []⟩ := by
  simp only [onLearn, Handler.bind_apply, Handler.get_apply,
    Outcome.andThen_ok, Outcome.after_nil, Handler.ite_apply]
  split <;> rfl

end Equations

end Node

end SwitchPaxos.Insane
