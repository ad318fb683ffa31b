import BinaryLog.Peer.Address

/-!
# Call attributes

What the transport says of a call: its remote address, which may become known late and is recorded
at most once. Attributes are seen through handles, and what is recorded through one handle is seen
through every other one onto the same attributes. `AttributeStore` is where the handles lead to, and
`AttributeTable` numbers handles onto a store.
-/

namespace BinaryLog

/-- The attributes of one call. -/
structure Attributes where
  remote : Option PeerAddress
  deriving DecidableEq, Repr

namespace Attributes

/-- Attributes with nothing recorded. -/
def empty : Attributes := ⟨none⟩

/-- Records the remote address, if none is recorded yet, and says whether it did. -/
def record (attrs : Attributes) (address : PeerAddress) : Bool × Attributes :=
  match attrs.remote with
  | none => (true, ⟨some address⟩)
  | some _ => (false, attrs)

/-- The remote address, or the stand-in when none is recorded. -/
def peer (attrs : Attributes) : PeerAddress := attrs.remote.getD .dummy

end Attributes

/-! ## Handles -/

/-- A handle onto attributes, which leads to a cell of a store. -/
structure AttributeHandle where
  cell : Nat
  deriving DecidableEq, Repr

/-- Another handle onto the same attributes. -/
def AttributeHandle.share (h : AttributeHandle) : AttributeHandle := ⟨h.cell⟩

@[simp] theorem AttributeHandle.share_eq (h : AttributeHandle) : h.share = h := rfl

/-- The attributes that handles lead to, cell by cell. -/
structure AttributeStore where
  cells : List Attributes
  deriving DecidableEq, Repr

namespace AttributeStore

/-- No cells yet. -/
def empty : AttributeStore := ⟨[]⟩

/-- The attributes that a handle leads to; a handle that leads nowhere sees nothing recorded. -/
def get (s : AttributeStore) (h : AttributeHandle) : Attributes := (s.cells[h.cell]?).getD .empty

/-- The handle onto the attributes that are created next. -/
def fresh (s : AttributeStore) : AttributeHandle := ⟨s.cells.length⟩

/-- New attributes, and a handle onto them. -/
def create (s : AttributeStore) (attrs : Attributes) : AttributeHandle × AttributeStore :=
  (s.fresh, ⟨s.cells ++ [attrs]⟩)

/-- Records a remote address through a handle, for all handles onto the same attributes. -/
def record (s : AttributeStore) (h : AttributeHandle) (address : PeerAddress) :
    Bool × AttributeStore :=
  let (fresh, attrs) := (s.get h).record address
  (fresh, ⟨s.cells.set h.cell attrs⟩)

end AttributeStore

/-! ## Numbered handles -/

/-- Handles onto a store by number: `handles[n]` is the handle numbered `n`. -/
structure AttributeTable where
  store : AttributeStore
  handles : List AttributeHandle
  deriving DecidableEq, Repr

namespace AttributeTable

/-- No handles yet. -/
def empty : AttributeTable := ⟨.empty, []⟩

/-- The attributes that a handle sees; an unknown handle sees nothing recorded. -/
def get (t : AttributeTable) (handle : Nat) : Attributes :=
  match t.handles[handle]? with
  | some h => t.store.get h
  | none => .empty

/-- A new handle, numbered next, onto attributes of its own. -/
def create (t : AttributeTable) (attrs : Attributes) : Nat × AttributeTable :=
  let (h, store) := t.store.create attrs
  (t.handles.length, ⟨store, t.handles ++ [h]⟩)

/-- A new handle, numbered next, onto the attributes that another one sees. -/
def share (t : AttributeTable) (handle : Nat) : Nat × AttributeTable :=
  match t.handles[handle]? with
  | some h => (t.handles.length, { t with handles := t.handles ++ [h.share] })
  | none => t.create .empty

/-- Records a remote address through a handle, for all handles onto the same attributes. -/
def record (t : AttributeTable) (handle : Nat) (address : PeerAddress) : Bool × AttributeTable :=
  match t.handles[handle]? with
  | some h =>
    let (fresh, store) := t.store.record h address
    (fresh, { t with store })
  | none => ((Attributes.empty.record address).1, t)

end AttributeTable

end BinaryLog
