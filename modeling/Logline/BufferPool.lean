import Logline.Text.Bytes
/-!
# Buffer pools

Lines are put together in buffers that are used again and again. A pool hands out an empty buffer, an
idle one if it has one and a new one otherwise, and takes buffers back. The buffer that was given back
first is used first. Buffers have a number, so that two buffers with the same content can be told apart.
-/

namespace Logline

/-- A buffer with its number. -/
structure Buffer where
  id : Nat
  bytes : Bytes
  deriving DecidableEq, Repr

/-- A pool of buffers. -/
structure BufferPool where
  /-- The idle buffers, in the order in which they were given back. -/
  idle : List Buffer := []
  /-- How many buffers the pool has made. -/
  allocated : Nat := 0
  /-- How often an idle buffer was used again. -/
  reused : Nat := 0
  /-- The number of the next buffer that is made, by the pool or elsewhere. -/
  nextId : Nat := 0
  deriving DecidableEq, Repr, Inhabited

namespace BufferPool

/-- Takes an empty buffer out of the pool. -/
def acquire (pool : BufferPool) : Buffer × BufferPool :=
  match pool.idle with
  | buffer :: rest => (buffer, { pool with idle := rest, reused := pool.reused + 1 })
  | [] => (⟨pool.nextId, []⟩,
      { pool with allocated := pool.allocated + 1, nextId := pool.nextId + 1 })

/-- Gives a buffer back to the pool, which empties it. -/
def release (pool : BufferPool) (buffer : Buffer) : BufferPool :=
  { pool with idle := pool.idle ++ [{ buffer with bytes := [] }] }

/-- Makes a buffer outside the pool. -/
def makeForeign (pool : BufferPool) : Buffer × BufferPool :=
  (⟨pool.nextId, []⟩, { pool with nextId := pool.nextId + 1 })

end BufferPool

/-! ### Holding buffers -/

/-- A pool together with the buffers that are out of it: those held under a name, which go back to the
pool, and those detached from it, the last one first. -/
structure BufferDesk where
  pool : BufferPool := {}
  held : List (String × Buffer) := []
  detached : List (String × Buffer) := []
  deriving Repr, Inhabited

namespace BufferDesk

/-- The buffer held under a name. -/
def find? (desk : BufferDesk) (name : String) : Option Buffer :=
  (desk.held.find? fun h => h.1 == name).map Prod.snd

/-- The other buffers that are held. -/
def others (desk : BufferDesk) (name : String) : List (String × Buffer) :=
  desk.held.filter fun h => h.1 != name

/-- Gives the buffer held under a name back to the pool. -/
def release (desk : BufferDesk) (name : String) : BufferDesk :=
  match desk.find? name with
  | some buffer => { desk with pool := desk.pool.release buffer, held := desk.others name }
  | none => desk

/-- Takes a buffer under a name. A buffer already held under that name is given back after that. -/
def acquire (desk : BufferDesk) (name : String) : BufferDesk :=
  let (buffer, pool) := desk.pool.acquire
  let desk := { desk with pool }.release name
  { desk with held := desk.held ++ [(name, buffer)] }

/-- Changes the content of the buffer held under a name. -/
def update (desk : BufferDesk) (name : String) (change : Bytes → Bytes) : BufferDesk :=
  { desk with held := desk.held.map fun h =>
      if h.1 == name then (h.1, { h.2 with bytes := change h.2.bytes }) else h }

/-- Detaches the buffer held under a name from the pool. -/
def detach (desk : BufferDesk) (name : String) : BufferDesk :=
  match desk.find? name with
  | some buffer =>
    { desk with held := desk.others name, detached := (name, buffer) :: desk.detached }
  | none => desk

/-- Gives the buffer that was detached last under a name to the pool. -/
def releaseDetached (desk : BufferDesk) (name : String) : BufferDesk :=
  match desk.detached.find? fun d => d.1 == name with
  | some d =>
    { desk with
      pool := desk.pool.release d.2
      detached := desk.detached.eraseP fun d => d.1 == name }
  | none => desk

/-- Gives a buffer to the pool that was made outside it. -/
def releaseForeign (desk : BufferDesk) : BufferDesk :=
  let (buffer, pool) := desk.pool.makeForeign
  { desk with pool := pool.release buffer }

/-- Takes a buffer, writes into it and gives it back on the way out of a panic. -/
def abandon (desk : BufferDesk) (written : Bytes) : BufferDesk :=
  let (buffer, pool) := desk.pool.acquire
  { desk with pool := pool.release { buffer with bytes := buffer.bytes ++ written } }

end BufferDesk

end Logline
