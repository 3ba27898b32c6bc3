import StructuredLog.Severity

/-!
How many messages of each severity there were.
-/

namespace StructuredLog

structure Counters where
  count : Severity → Nat

namespace Counters

def zero : Counters := ⟨fun _ => 0⟩

def increment (c : Counters) (s : Severity) : Counters :=
  ⟨fun t => if t = s then c.count t + 1 else c.count t⟩

def total (c : Counters) : Nat := Severity.all.foldr (fun s sum => c.count s + sum) 0

def report (c : Counters) : List (Severity × Nat) := Severity.all.map fun s => (s, c.count s)

theorem count_increment (c : Counters) (s t : Severity) :
    (c.increment s).count t = if t = s then c.count t + 1 else c.count t := rfl

theorem report_ranks (c : Counters) :
    c.report.map (fun entry => entry.1.index) = List.range 10 := rfl

theorem mem_report (c : Counters) (s : Severity) : (s, c.count s) ∈ c.report := by
  have listed : s ∈ Severity.all := by cases s <;> decide
  exact List.mem_map_of_mem listed

theorem total_report (c : Counters) :
    c.total = c.report.foldr (fun entry sum => entry.2 + sum) 0 := by
  rw [total, report, List.foldr_map]

end Counters

end StructuredLog
