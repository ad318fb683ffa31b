import BinaryLog.Attributes

/-!
# Running a script on attribute handles

A script is a list of actions, each of which makes a handle or does something through one. `step`
performs one action and `run` a whole script.
-/

namespace BinaryLog.AttributeTable

/-- What is done with handles. -/
inductive Action where
  /-- Makes a handle onto attributes of its own, with a remote address if one is known already. -/
  | create (initial : Option PeerAddress)
  /-- Makes a handle onto the attributes that another one sees. -/
  | share (handle : Nat)
  /-- Records a remote address. -/
  | record (handle : Nat) (address : PeerAddress)
  /-- Asks for the remote address. -/
  | remote (handle : Nat)
  /-- Asks for the remote address, or the stand-in. -/
  | peer (handle : Nat)
  deriving DecidableEq, Repr

/-- What an action answers. -/
inductive Answer where
  /-- The number of the handle that was made. -/
  | handle (number : Nat)
  /-- Whether the address was recorded. -/
  | recorded (fresh : Bool)
  | remote (address : Option PeerAddress)
  | peer (address : PeerAddress)
  deriving DecidableEq, Repr

/-- Performs an action. -/
def step (t : AttributeTable) : Action → Answer × AttributeTable
  | .create initial =>
    let (number, t) := t.create ⟨initial⟩
    (.handle number, t)
  | .share handle =>
    let (number, t) := t.share handle
    (.handle number, t)
  | .record handle address =>
    let (fresh, t) := t.record handle address
    (.recorded fresh, t)
  | .remote handle => (.remote (t.get handle).remote, t)
  | .peer handle => (.peer (t.get handle).peer, t)

/-- Performs the actions of a script in order. -/
def run (t : AttributeTable) : List Action → List Answer × AttributeTable
  | [] => ([], t)
  | a :: script =>
    let (answer, t) := t.step a
    let (answers, t) := t.run script
    (answer :: answers, t)

end BinaryLog.AttributeTable
