import ForgeOS.Library.Folds
import ForgeOS.Tracing.Sink
import Mathlib.Data.List.Sort
import Mathlib.Data.String.Basic

/-!
The index over spans: they are grouped by their trace, and sorted in each trace
by the texts of their start and of their id.
-/

namespace ForgeOS

open Library

/-- The spans of each trace, in the order in which the traces are first seen. -/
abbrev TraceIndex := Dict String (List Span)

namespace TraceIndex

/-- `(start_time, span_id)` comparison, the sort key of a trace. -/
def keyLe (a b : Span) : Prop :=
  a.startTime < b.startTime ∨ a.startTime = b.startTime ∧ a.spanId ≤ b.spanId

instance : DecidableRel keyLe := fun a b =>
  inferInstanceAs (Decidable (a.startTime < b.startTime ∨
    a.startTime = b.startTime ∧ a.spanId ≤ b.spanId))

instance : Std.Total keyLe where
  total a b := by
    unfold keyLe
    rcases lt_trichotomy a.startTime b.startTime with h | h | h
    · exact .inl (.inl h)
    · rcases le_total a.spanId b.spanId with hid | hid
      · exact .inl (.inr ⟨h, hid⟩)
      · exact .inr (.inr ⟨h.symm, hid⟩)
    · exact .inr (.inl h)

instance : IsTrans Span keyLe where
  trans a b c hab hbc := by
    unfold keyLe at *
    rcases hab with hab | ⟨hab, hids⟩
    · rcases hbc with hbc | ⟨hbc, -⟩
      · exact .inl (hab.trans hbc)
      · exact .inl (hbc ▸ hab)
    · rw [hab]
      exact hbc.imp id (And.imp_right hids.trans)

/-- `TraceIndex(spans)` -/
def ofSpans (spans : List Span) : TraceIndex :=
  (Buckets.collect Span.traceId (fun bucket span => bucket ++ [span]) [] spans).map
    fun entry => (entry.1, entry.2.insertionSort keyLe)

def traceIds (index : TraceIndex) : List String := index.map Prod.fst

/-- The spans of a trace; none for an unknown one. -/
def spansFor (index : TraceIndex) (traceId : String) : List Span := (index.get? traceId).getD []

private theorem foldl_append_singleton (spans bucket : List Span) :
    spans.foldl (fun bucket span => bucket ++ [span]) bucket = bucket ++ spans := by
  induction spans generalizing bucket with
  | nil => exact (List.append_nil bucket).symm
  | cons span rest ih => rw [List.foldl_cons, ih, List.append_assoc, List.singleton_append]

theorem spansFor_ofSpans (spans : List Span) (traceId : String) :
    (ofSpans spans).spansFor traceId =
      (spans.filter fun span => span.traceId = traceId).insertionSort keyLe := by
  unfold spansFor ofSpans
  rw [Dict.get?_mapValues, Buckets.get?_collect]
  split
  · rw [foldl_append_singleton]
    rfl
  · rename_i hnone
    have hempty : (spans.filter fun span => span.traceId = traceId) = [] := by
      rw [List.filter_eq_nil_iff]
      intro span hspan htrace
      exact hnone (List.mem_map.mpr ⟨span, hspan, of_decide_eq_true htrace⟩)
    rw [hempty]
    rfl

/-- Sorting keeps what is sorted already, and nothing else. -/
theorem insertionSort_eq_self_iff (spans : List Span) :
    spans.insertionSort keyLe = spans ↔ spans.Pairwise keyLe := by
  constructor
  · intro h
    rw [← h]
    exact List.pairwise_insertionSort keyLe spans
  · exact List.Pairwise.insertionSort_eq

end TraceIndex

end ForgeOS
