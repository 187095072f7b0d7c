/-!
# Spans

A span is a half-open range of offsets in a text.
-/

namespace Gloss

/-- The offsets from `start` up to but not including `stop`. -/
structure Span where
  start : Nat
  stop : Nat
  deriving DecidableEq, Repr

namespace Span

def contains (span : Span) (offset : Int) : Bool :=
  span.start ≤ offset && offset < span.stop

def size (span : Span) : Nat := span.stop - span.start

end Span

end Gloss
