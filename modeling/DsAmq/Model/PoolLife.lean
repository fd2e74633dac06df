import Mathlib.Data.Finset.Insert
import Mathlib.Data.Finset.Erase
import DsAmq.Model.ProducerPool
import DsAmq.Library.Machine

/-!
# Any sequence of calls on one `CDSAMQProducerPool`

`ProducerPool.items` runs the operations on the items of a pool, each with the pointer it returns;
`PoolLife.items` does the same, and keeps account of the elements of the current array that were
handed out and not given back; `PoolLife.machine` runs all public operations, from the constructor
on.
-/

set_option autoImplicit false

namespace DsAmq.Model

/-- An operation on the items of a pool. -/
inductive ItemOp where
  | createPoolItem
  | freePoolItem (producer : Option ℕ)
  | initPoolItemCursor
  | getNextPoolItem
deriving DecidableEq, Repr

/-- The pointer that an operation returns, NULL for those that return nothing, and the pool
afterwards. -/
def ProducerPool.onItems (p : ProducerPool) : ItemOp → Except Fault (Option ℕ × ProducerPool)
  | .createPoolItem => p.createPoolItem
  | .freePoolItem producer => (p.freePoolItem producer).map fun p => (none, p)
  | .initPoolItemCursor => .ok (none, p.initPoolItemCursor)
  | .getNextPoolItem => p.getNextPoolItem

/-- The operations on the items, each with the pointer it returns. -/
def ProducerPool.items : Library.Machine ProducerPool (ItemOp × Option ℕ) where
  step p x :=
    match p.onItems x.1 with
    | .ok (r, p) => if r = x.2 then some p else none
    | .error _ => none

/-- A public operation of the pool. -/
inductive LifeOp where
  | createPool (nPoolSize : UInt32) (strBrokerURI strDestURI : String)
      (bUseTopic bClientAck : Bool) (alloc : Alloc)
  | destroyPool
  | item (op : ItemOp)
deriving DecidableEq, Repr

/-- The pool, and the positions of the elements of the current array that were handed out and not
given back. -/
structure PoolLife where
  pool : ProducerPool
  out : Finset ℕ

namespace PoolLife

/-- A new pool. -/
def new : PoolLife := ⟨.new, ∅⟩

/-- The positions that are handed out after an operation on the items that returned `r`. -/
def outAfter (out : Finset ℕ) : ItemOp → Option ℕ → Finset ℕ
  | .createPoolItem, some k => insert k out
  | .freePoolItem (some k), _ => out.erase k
  | _, _ => out

/-- The operations on the items, each with the pointer it returns. -/
def items : Library.Machine PoolLife (ItemOp × Option ℕ) where
  step s x :=
    match s.pool.onItems x.1 with
    | .ok (r, p) => if r = x.2 then some ⟨p, outAfter s.out x.1 r⟩ else none
    | .error _ => none

/-- One operation; `none` when it goes through a bad pointer.  `std::out_of_range` is thrown by the
scans, before anything is written.  An array that `CreatePool` replaces is no longer the current
one; one that it deletes, or that `DestroyPool` deletes, is none at all. -/
def exec (s : PoolLife) : LifeOp → Option PoolLife
  | .createPool n b d t a alloc =>
      let r := s.pool.createPool n b d t a alloc
      match r.1 with
      | .returned false => some ⟨r.2, s.out⟩
      | _ => some ⟨r.2, ∅⟩
  | .destroyPool =>
      match s.pool.destroyPool with
      | .ok p => some ⟨p, ∅⟩
      | .error _ => none
  | .item op =>
      match s.pool.onItems op with
      | .ok (r, p) => some ⟨p, outAfter s.out op r⟩
      | .error .outOfRange => some s
      | .error .badAccess => none

/-- Any sequence of operations on a pool; the state is `none` from an access through a bad pointer
on. -/
def machine : Library.Machine (Option PoolLife) LifeOp :=
  ⟨fun s op => some (s.bind fun s => s.exec op)⟩

end PoolLife

end DsAmq.Model
