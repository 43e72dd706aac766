import Logline.Formatter.Pair
/-!
# Cutting ranges out of a buffer

Ranges are cut out of a buffer in one pass over it. What is kept moves to the left in blocks, each to
where the kept part before it ends; at last the buffer is shortened.
-/

namespace Logline

/-- Moves the block from `start` to `stop` to the position `dest` inside the buffer. -/
def moveBlock (buf : Bytes) (start stop dest : Nat) : Bytes :=
  buf.take dest ++ Span.slice ⟨start, stop⟩ buf ++ buf.drop (dest + (stop - start))

/-- How far a compaction has come: up to `read` the buffer was looked at, and what is kept of that part
ends at `write`. -/
structure Compaction where
  buf : Bytes
  write : Nat
  read : Nat

namespace Compaction

/-- Keeps what lies before a range, and skips the range. -/
def skip (c : Compaction) (range : Span) : Compaction :=
  if c.read < range.start then
    { buf := moveBlock c.buf c.read range.start c.write
      write := c.write + (range.start - c.read)
      read := range.stop }
  else { c with read := range.stop }

/-- Keeps everything that is left, and shortens the buffer. -/
def close (c : Compaction) : Bytes :=
  let stop := c.buf.length
  (moveBlock c.buf c.read stop c.write).take (c.write + (stop - c.read))

end Compaction

/-- Cuts ranges out of a buffer. They must be in order and must not overlap. -/
def compact (buf : Bytes) : List Span → Bytes
  | [] => buf
  | first :: rest => (rest.foldl Compaction.skip ⟨buf, first.start, first.stop⟩).close

end Logline
