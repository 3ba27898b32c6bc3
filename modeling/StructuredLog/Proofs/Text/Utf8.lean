import StructuredLog.Text.Utf8

/-!
Texts and their bytes: texts are told apart by their bytes, and a text that is cut to so many bytes
keeps all the characters that fit.
-/

namespace StructuredLog.Text

theorem encode_injective {first second : List Char} (same : encode first = encode second) :
    first = second := by
  have bytes : first.utf8Encode = second.utf8Encode := congrArg List.toByteArray same
  have read := congrArg ByteArray.utf8Decode? bytes
  rw [List.utf8Decode?_utf8Encode, List.utf8Decode?_utf8Encode, Option.some.injEq] at read
  exact congrArg Array.toList read

theorem length_encode_cons (c : Char) (rest : List Char) :
    (encode (c :: rest)).length = c.utf8Size + (encode rest).length := by
  rw [encode, List.flatMap_cons, List.length_append, String.length_utf8EncodeChar, ← encode]

/-- The longest beginning of a text that takes up at most so many bytes. -/
structure LongestFit (room : Nat) (text kept : List Char) : Prop where
  front : kept <+: text
  fits : (encode kept).length ≤ room
  longest : ∀ other, other <+: text → (encode other).length ≤ room → other <+: kept

theorem clip_fits (room : Nat) (text : List Char) : LongestFit room text (clip room text) := by
  induction text generalizing room with
  | nil =>
    refine ⟨List.prefix_rfl, Nat.zero_le room, ?_⟩
    intro other front _
    exact front
  | cons c rest ih =>
    unfold clip
    split
    · next enough =>
      obtain ⟨front, fits, longest⟩ := ih (room - c.utf8Size)
      refine ⟨List.cons_prefix_cons.mpr ⟨rfl, front⟩, ?_, ?_⟩
      · rw [length_encode_cons]
        omega
      · intro other otherFront otherFits
        cases other with
        | nil => exact List.nil_prefix
        | cons d others =>
          obtain ⟨rfl, same⟩ := List.cons_prefix_cons.mp otherFront
          rw [length_encode_cons] at otherFits
          exact List.cons_prefix_cons.mpr ⟨rfl, longest others same (by omega)⟩
    · next full =>
      refine ⟨List.nil_prefix, Nat.zero_le room, ?_⟩
      intro other otherFront otherFits
      cases other with
      | nil => exact List.prefix_rfl
      | cons d others =>
        obtain ⟨rfl, -⟩ := List.cons_prefix_cons.mp otherFront
        rw [length_encode_cons] at otherFits
        omega

/-- Half a character does not fit. -/
example : clip 4 ['a', 'é', 'é'] = ['a', 'é'] := by decide

end StructuredLog.Text
