import Logline.Formatter.Compaction
/-!
# Lists of pairs

All pairs of all lists are written to the buffer, one after the other. For every key the range of its
current pair is known; when a key comes again, either the new pair is obsolete, because it is written the
same way as the current one, or the current one is. In the end the obsolete ranges are cut out, and every
key is left with one pair.
-/

namespace Logline

/-- The current pair of a key: where the key stands, and where the pair stands. -/
structure Entry where
  key : Span
  span : Span
  deriving DecidableEq, Repr

/-- What is known while lists are written: the buffer, the current pair of each key, and the obsolete
ranges in ascending order. -/
structure Progress where
  buf : Bytes
  entries : List Entry := []
  obsolete : List Span := []

namespace Progress

/-- Adds a range to ranges that are in ascending order. -/
def insertSpan (span : Span) (spans : List Span) : List Span :=
  spans.takeWhile (fun s => s.start < span.start) ++
    span :: spans.dropWhile (fun s => s.start < span.start)

/-- Takes account of a pair that was just written behind the old end of the buffer. -/
def record (p : Progress) (buf : Bytes) (key : Span) : Progress :=
  let span : Span := ⟨p.buf.length, buf.length⟩
  match p.entries.findIdx? fun e => e.key.slice buf == key.slice buf with
  | none => { buf, entries := p.entries ++ [⟨key, span⟩], obsolete := p.obsolete }
  | some i =>
    match p.entries[i]? with
    | none => { p with buf }
    | some old =>
      if old.span.slice buf == span.slice buf then
        { buf, entries := p.entries, obsolete := p.obsolete ++ [span] }
      else
        { buf, entries := p.entries.set i ⟨key, span⟩, obsolete := insertSpan old.span p.obsolete }

end Progress

namespace Formatter

/-- Writes pairs one after the other. -/
def writePairs (f : Formatter) (p : Progress) : List (Value × Value) → Traced Progress
  | [] => pure p
  | (k, v) :: rest => do
    let (buf, key) ← f.writePair p.buf k v
    f.writePairs (p.record buf key) rest

/-- Writes the pairs of lists so that every key appears once. Later lists override earlier ones: a key
that comes again with the same rendering keeps its place, one with another rendering moves to its last
place. -/
def writeLists (f : Formatter) (buf : Bytes) (lists : List (List Value)) : Traced Bytes := do
  let p ← f.writePairs { buf } (lists.flatMap KeyValues.completePairs)
  pure (compact p.buf p.obsolete)

end Formatter

end Logline
