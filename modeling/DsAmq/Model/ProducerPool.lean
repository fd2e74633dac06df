import DsAmq.Model.Producer
import DsAmq.Library.Scan

/-!
# `CDSAMQProducerPool`

The array of producers and the bitset that marks those in use.  A `CDSAMQProducer*` of the
pool is the position of the element in the current array.  An access outside the bitset
throws `std::out_of_range`, an access through a bad pointer is undefined: both are a `Fault`.
`unsigned int` members hold naturals below `2^32`.
-/

set_option autoImplicit false

namespace DsAmq.Model

/-- What a pool operation can run into: `std::out_of_range` of the bitset, or an access
through a null or freed array pointer, or outside the array. -/
inductive Fault where
  | outOfRange
  | badAccess
deriving DecidableEq, Repr

/-- `MAX_BITSET_SIZE`.
SOURCE: DSAMQProducerPool.h:18 -/
def maxBitsetSize : ℕ := 0xFFFF * 8

/-- The pointer `m_pool`: null, an array, or an array that has been deleted. -/
inductive PoolArray where
  | null
  | allocated (elems : List Producer)
  | freed
deriving DecidableEq, Repr

namespace PoolArray

/-- `m_pool[i]`, read. -/
def get (a : PoolArray) (i : ℕ) : Except Fault Producer :=
  match a with
  | .allocated elems =>
      match elems[i]? with
      | some p => .ok p
      | none => .error .badAccess
  | _ => .error .badAccess

/-- `m_pool[i]`, written: the array with `f` applied to the element. -/
def modify (a : PoolArray) (i : ℕ) (f : Producer → Producer) : Except Fault PoolArray :=
  match a with
  | .allocated elems =>
      match elems[i]? with
      | some p => .ok (.allocated (elems.set i (f p)))
      | none => .error .badAccess
  | _ => .error .badAccess

/-- The loop of `CreatePool` over the array that `new` has just returned.
SOURCE: DSAMQProducerPool.h:68-70 -/
def setURIInfos (a : PoolArray) (nPoolSize : ℕ) (strBrokerURI strDestURI : String)
    (bUseTopic bClientAck : Bool) : Except Fault PoolArray :=
  (List.range nPoolSize).foldlM
    (fun a i => a.modify i (·.setURIInfo strBrokerURI strDestURI bUseTopic bClientAck)) a

/-- The array after a copy of the pool object that shares it has been destroyed. -/
def release : PoolArray → PoolArray
  | .null => .null
  | _ => .freed

end PoolArray

/-- The data members of `CDSAMQProducerPool`.
SOURCE: DSAMQProducerPool.h:181-191 -/
structure ProducerPool where
  nPoolCursor : ℕ
  nPoolSize : ℕ
  nUsedPoolItemCnt : ℕ
  pool : PoolArray
  isCreated : Bool
  nBitSetSize : ℕ
  bits : ℕ → Bool
  strError : String

/-- `new CDSAMQProducer[n]`, as far as it can be foreseen: it returns, or throws `bad_alloc`
with this `what()`. -/
inductive Alloc where
  | ok
  | badAlloc (what : String)
deriving DecidableEq, Repr

/-- How `CreatePool` ends. -/
inductive CreateResult where
  | returned (b : Bool)
  | threw
deriving DecidableEq, Repr

namespace ProducerPool

/-- The constructor.
SOURCE: DSAMQProducerPool.h:24-28 -/
def new : ProducerPool := ⟨0, 0, 0, .null, false, 0, fun _ => false, ""⟩

/-- `m_bits.test(i)`. -/
def test (p : ProducerPool) (i : ℕ) : Except Fault Bool :=
  if i < maxBitsetSize then .ok (p.bits i) else .error .outOfRange

/-- `m_bits.set(i, b)`. -/
def setBit (p : ProducerPool) (i : ℕ) (b : Bool) : Except Fault ProducerPool :=
  if i < maxBitsetSize then
    .ok { p with bits := fun j => if j = i then b else p.bits j }
  else .error .outOfRange

/-- `CreatePool`.  The exception it throws is a copy of the pool object, and the destructor
of the copy deletes the array they share.
SOURCE: DSAMQProducerPool.h:42-74 -/
def createPool (p : ProducerPool) (nPoolSize : UInt32) (strBrokerURI strDestURI : String)
    (bUseTopic bClientAck : Bool) (alloc : Alloc) : CreateResult × ProducerPool :=
  let p := { p with
    nPoolSize := nPoolSize.toNat
    nBitSetSize := wrap32 ((nPoolSize.toNat / 8 + 1) * 8) }
  if p.nBitSetSize > maxBitsetSize then
    (.returned false, { p with strError := "In CreatePool(), max bitset size is over." })
  else
    match alloc with
    | .badAlloc what =>
        (.threw, { p with strError := "In CreatePool(), " ++ what, pool := p.pool.release })
    | .ok =>
        let elem := Producer.new.setURIInfo strBrokerURI strDestURI bUseTopic bClientAck
        (.returned true,
          { p with
            pool := .allocated (List.replicate nPoolSize.toNat elem)
            isCreated := true })

/-- `DestroyPool`.
SOURCE: DSAMQProducerPool.h:76-86 -/
def destroyPool (p : ProducerPool) : Except Fault ProducerPool :=
  if p.pool = .freed then .error .badAccess
  else
    .ok { p with
      pool := .null
      nPoolSize := 0
      nPoolCursor := 0
      nUsedPoolItemCnt := 0
      bits := fun _ => false }

/-- `CreatePoolItem`: the position of the element it hands out, `none` for NULL.
SOURCE: DSAMQProducerPool.h:89-112 -/
def createPoolItem (p : ProducerPool) : Except Fault (Option ℕ × ProducerPool) := do
  let found ← Library.scan (fun i => (p.test i).map (!·)) 0 p.nBitSetSize
  let nPos := found.getD npos
  if nPos ≥ p.nPoolSize then
    return (none, { p with strError := "In CreatePoolItem(), Pool Overflow." })
  else
    let pool ← p.pool.modify nPos (·.setIndex nPos)
    let p ← { p with pool := pool }.setBit nPos true
    return (some nPos, { p with nUsedPoolItemCnt := wrap32 (p.nUsedPoolItemCnt + 1) })

/-- `FreePoolItem`, of NULL or of the element at a position.
SOURCE: DSAMQProducerPool.h:115-132 -/
def freePoolItem (p : ProducerPool) (producer : Option ℕ) : Except Fault ProducerPool :=
  match producer with
  | none => .ok p
  | some k => do
      let nPoolIdx := (← p.pool.get k).nposition
      if nPoolIdx ≥ p.nPoolSize then
        return p
      else
        let pool ← p.pool.modify k (·.setIndex npos)
        let p ← { p with pool := pool }.setBit nPoolIdx false
        if p.nUsedPoolItemCnt > 0 then
          return { p with nUsedPoolItemCnt := p.nUsedPoolItemCnt - 1 }
        else
          return p

/-- `InitPoolItemCursor`.
SOURCE: DSAMQProducerPool.h:134-137 -/
def initPoolItemCursor (p : ProducerPool) : ProducerPool := { p with nPoolCursor := 0 }

/-- `GetNextPoolItem`.
SOURCE: DSAMQProducerPool.h:140-160 -/
def getNextPoolItem (p : ProducerPool) : Except Fault (Option ℕ × ProducerPool) := do
  let found ← Library.scan p.test p.nPoolCursor (p.nBitSetSize - p.nPoolCursor)
  let nPos := found.getD npos
  if nPos ≥ p.nPoolSize then
    return (none, { p with nPoolCursor := 0 })
  else
    let _ ← p.pool.get nPos
    return (some nPos, { p with nPoolCursor := wrap32 (nPos + 1) })

end ProducerPool

end DsAmq.Model
