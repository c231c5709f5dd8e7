set_option autoImplicit false

/-!
# Source spans

A span tells where a declaration stands: the offset of its first byte and the offset after its
last one. Spans come from outside, so nothing forces the end to lie behind the start.

## Main definitions

* `Span` — two offsets.
* `Span.merge` — the smallest span around two spans.
* `Span.compare` — the order by start, then by end, in which reports are sorted.
-/

namespace MapperDelegation

/-- The bytes from `start` up to `stop`, the latter excluded. -/
structure Span where
  start : Nat
  stop : Nat
deriving DecidableEq

namespace Span

/-- The span of a declaration whose place is not known. -/
def unknown : Span := ⟨0, 0⟩

/-- The number of bytes, zero for a span that ends before it starts. -/
def length (s : Span) : Nat := s.stop - s.start

/-- Whether a span holds no byte. -/
def isEmpty (s : Span) : Bool := s.stop ≤ s.start

/-- Whether a span is the one of an unknown place. -/
def isUnknown (s : Span) : Bool := s = unknown

/-- The span from the earlier start to the later end. -/
def merge (s t : Span) : Span := ⟨min s.start t.start, max s.stop t.stop⟩

/-- The order by start, then by end. -/
def compare (s t : Span) : Ordering :=
  (Ord.compare s.start t.start).then (Ord.compare s.stop t.stop)

/-- Whether `s` does not come after `t`. -/
def le (s t : Span) : Bool := (s.compare t).isLE

/-- A span as it is shown in reports. -/
def text (s : Span) : String := s!"{s.start}..{s.stop}"

/-- The order of spans, spelled out. -/
theorem le_iff {s t : Span} :
    s.le t ↔ s.start < t.start ∨ s.start = t.start ∧ s.stop ≤ t.stop := by
  simp only [le, compare, Nat.compare_eq_ite_lt]
  split
  · simp_all [Ordering.then]
  · split
    · simp [Ordering.then]; omega
    · have hstart : s.start = t.start := by omega
      simp only [Ordering.then, hstart, true_and, Nat.lt_irrefl, false_or]
      split
      · simp; omega
      · split <;> simp <;> omega

end Span

end MapperDelegation
