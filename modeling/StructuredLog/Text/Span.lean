/-!
Character classes given as spans of code points.
-/

namespace StructuredLog.Text

def inSpans (spans : List (Nat × Nat)) (c : Char) : Bool :=
  spans.any fun span => decide (span.1 ≤ c.toNat ∧ c.toNat ≤ span.2)

theorem inSpans_iff (spans : List (Nat × Nat)) (c : Char) :
    inSpans spans c = true ↔ ∃ span ∈ spans, span.1 ≤ c.toNat ∧ c.toNat ≤ span.2 := by
  simp only [inSpans, List.any_eq_true, decide_eq_true_eq]

end StructuredLog.Text
