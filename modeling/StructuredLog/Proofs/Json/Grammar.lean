import StructuredLog.Json.Reader
import StructuredLog.Proofs.Text.Digits

/-!
The grammar of documents. A relation reads a text from its beginning and says what is left of it.
A document is taken as it is written: an object keeps all its members in their order, repeated keys
included, and a number keeps its spelling.
-/

namespace StructuredLog.Json

inductive Tree where
  | null
  | bool (b : Bool)
  | number (text : List Char)
  | string (s : String)
  | array (items : List Tree)
  | object (members : List (String × Tree))

def code? (a b c d : Char) : Option Nat := do
  let high := (← Text.hexValue? a) * 16 + (← Text.hexValue? b)
  let low := (← Text.hexValue? c) * 16 + (← Text.hexValue? d)
  some (high * 256 + low)

/-- The characters of a string up to its closing quote. A character above the first 65536 may be
given by the codes of its two halves; a half without the other is no character. -/
inductive Chars : List Char → List Char → List Char → Prop where
  | close (rest : List Char) : Chars [] ('"' :: rest) rest
  | plain {c : Char} {s text rest : List Char} (quote : c ≠ '"') (escape : c ≠ '\\')
      (shown : 0x20 ≤ c.toNat) (more : Chars s text rest) : Chars (c :: s) (c :: text) rest
  | letter {l c : Char} {s text rest : List Char} (known : escapeLetter? l = some c)
      (more : Chars s text rest) : Chars (c :: s) ('\\' :: l :: text) rest
  | code {a b c d : Char} {n : Nat} {s text rest : List Char} (known : code? a b c d = some n)
      (whole : n < 0xD800 ∨ 0xDFFF < n) (more : Chars s text rest) :
      Chars (.ofNat n :: s) ('\\' :: 'u' :: a :: b :: c :: d :: text) rest
  | pair {a b c d e f g h : Char} {high low : Nat} {s text rest : List Char}
      (first : code? a b c d = some high) (leads : 0xD800 ≤ high ∧ high ≤ 0xDBFF)
      (second : code? e f g h = some low) (trails : 0xDC00 ≤ low ∧ low ≤ 0xDFFF)
      (more : Chars s text rest) :
      Chars (.ofNat (0x10000 + (high - 0xD800) * 0x400 + (low - 0xDC00)) :: s)
        ('\\' :: 'u' :: a :: b :: c :: d :: '\\' :: 'u' :: e :: f :: g :: h :: text) rest

def IsDigits (text : List Char) : Prop := text ≠ [] ∧ ∀ c ∈ text, c.isDigit = true

def IsWhole (text : List Char) : Prop :=
  IsDigits text ∧ (text = ['0'] ∨ text.head? ≠ some '0')

def IsFraction (text : List Char) : Prop :=
  text = [] ∨ ∃ digits, text = '.' :: digits ∧ IsDigits digits

def IsExponent (text : List Char) : Prop :=
  text = [] ∨ ∃ mark sign digits, text = mark :: sign ++ digits ∧ (mark = 'e' ∨ mark = 'E') ∧
    (sign = [] ∨ sign = ['+'] ∨ sign = ['-']) ∧ IsDigits digits

def IsNumber (text : List Char) : Prop :=
  ∃ sign whole fraction exponent, text = sign ++ whole ++ fraction ++ exponent ∧
    (sign = [] ∨ sign = ['-']) ∧ IsWhole whole ∧ IsFraction fraction ∧ IsExponent exponent

def isNumeral (c : Char) : Bool := c.isDigit || ['-', '+', '.', 'e', 'E'].contains c

/-- What is left does not go on with a number. -/
def EndsNumber (rest : List Char) : Prop := ∀ c, rest.head? = some c → isNumeral c = false

def skip (text : List Char) : List Char := text.dropWhile isSpace

/-- What may be read: a value, a member of an object, or all that stands in brackets, which is read
with the bracket that closes it. -/
inductive Part where
  | value (v : Tree)
  | member (key : String) (v : Tree)
  | items (items : List Tree)
  | members (members : List (String × Tree))

/-- A text begins with a part, and the rest is left. A number takes in all characters that it
can; what stands after a value is never one of them. -/
inductive Reads : Part → List Char → List Char → Prop where
  | wordNull (rest : List Char) : Reads (.value .null) ('n' :: 'u' :: 'l' :: 'l' :: rest) rest
  | wordTrue (rest : List Char) :
      Reads (.value (.bool true)) ('t' :: 'r' :: 'u' :: 'e' :: rest) rest
  | wordFalse (rest : List Char) :
      Reads (.value (.bool false)) ('f' :: 'a' :: 'l' :: 's' :: 'e' :: rest) rest
  | number {text digits rest : List Char} (same : text = digits ++ rest)
      (spelled : IsNumber digits) (ends : EndsNumber rest) :
      Reads (.value (.number digits)) text rest
  | string {s text rest : List Char} (chars : Chars s text rest) :
      Reads (.value (.string (.ofList s))) ('"' :: text) rest
  | noItems {text rest : List Char} (closed : skip text = ']' :: rest) :
      Reads (.value (.array [])) ('[' :: text) rest
  | array {items : List Tree} {text rest : List Char} (inner : Reads (.items items) text rest) :
      Reads (.value (.array items)) ('[' :: text) rest
  | noMembers {text rest : List Char} (closed : skip text = '}' :: rest) :
      Reads (.value (.object [])) ('{' :: text) rest
  | object {members : List (String × Tree)} {text rest : List Char}
      (inner : Reads (.members members) text rest) :
      Reads (.value (.object members)) ('{' :: text) rest
  | member {key : List Char} {v : Tree} {text inside after held rest : List Char}
      (quote : skip text = '"' :: inside) (chars : Chars key inside after)
      (colon : skip after = ':' :: held) (value : Reads (.value v) (skip held) rest) :
      Reads (.member (.ofList key) v) text rest
  | lastItem {v : Tree} {text next rest : List Char} (item : Reads (.value v) (skip text) next)
      (closed : skip next = ']' :: rest) : Reads (.items [v]) text rest
  | nextItem {v : Tree} {items : List Tree} {text next more rest : List Char}
      (item : Reads (.value v) (skip text) next) (comma : skip next = ',' :: more)
      (others : Reads (.items items) more rest) : Reads (.items (v :: items)) text rest
  | lastMember {key : String} {v : Tree} {text next rest : List Char}
      (member : Reads (.member key v) text next) (closed : skip next = '}' :: rest) :
      Reads (.members [(key, v)]) text rest
  | nextMember {key : String} {v : Tree} {members : List (String × Tree)}
      {text next more rest : List Char} (member : Reads (.member key v) text next)
      (comma : skip next = ',' :: more) (others : Reads (.members members) more rest) :
      Reads (.members ((key, v) :: members)) text rest

def Document (v : Tree) (text : List Char) : Prop :=
  ∃ rest, Reads (.value v) (skip text) rest ∧ skip rest = []

theorem Chars.unique {s t text rest rest' : List Char} (one : Chars s text rest)
    (other : Chars t text rest') : s = t ∧ rest = rest' := by
  induction one generalizing t with
  | close rest =>
    cases other with
    | close => exact ⟨rfl, rfl⟩
    | plain quote => exact absurd rfl quote
  | plain quote escape shown more ih =>
    cases other with
    | close => exact absurd rfl quote
    | plain _ _ _ more' =>
      obtain ⟨rfl, rfl⟩ := ih more'
      exact ⟨rfl, rfl⟩
    | letter => exact absurd rfl escape
    | code => exact absurd rfl escape
    | pair => exact absurd rfl escape
  | letter known more ih =>
    cases other with
    | plain quote escape => exact absurd rfl escape
    | letter known' more' =>
      rw [known] at known'
      cases known'
      obtain ⟨rfl, rfl⟩ := ih more'
      exact ⟨rfl, rfl⟩
    | code => cases known
    | pair => cases known
  | code known whole more ih =>
    cases other with
    | plain quote escape => exact absurd rfl escape
    | letter known' more' => cases known'
    | code known' whole' more' =>
      rw [known] at known'
      cases known'
      obtain ⟨rfl, rfl⟩ := ih more'
      exact ⟨rfl, rfl⟩
    | pair first leads second trails more' =>
      rw [known] at first
      cases first
      omega
  | pair first leads second trails more ih =>
    cases other with
    | plain quote escape => exact absurd rfl escape
    | letter known' more' => cases known'
    | code known whole more' =>
      rw [first] at known
      cases known
      omega
    | pair first' _ second' _ more' =>
      rw [first] at first'
      rw [second] at second'
      cases first'
      cases second'
      obtain ⟨rfl, rfl⟩ := ih more'
      exact ⟨rfl, rfl⟩

theorem IsDigits.numeral {text : List Char} (digits : IsDigits text) :
    ∀ c ∈ text, isNumeral c = true := by
  intro c member
  rw [isNumeral, digits.2 c member, Bool.true_or]

theorem IsFraction.numeral {text : List Char} (spelled : IsFraction text) :
    ∀ c ∈ text, isNumeral c = true := by
  intro c member
  rcases spelled with rfl | ⟨digits, rfl, only⟩
  · cases member
  · rcases List.mem_cons.mp member with rfl | later
    · decide
    · exact only.numeral c later

theorem IsExponent.numeral {text : List Char} (spelled : IsExponent text) :
    ∀ c ∈ text, isNumeral c = true := by
  intro c member
  rcases spelled with rfl | ⟨mark, sign, digits, rfl, marks, signs, only⟩
  · cases member
  · rw [List.cons_append, List.mem_cons, List.mem_append] at member
    rcases member with rfl | signed | later
    · rcases marks with rfl | rfl <;> decide
    · rcases signs with rfl | rfl | rfl
      · cases signed
      · rw [List.mem_singleton.mp signed]
        decide
      · rw [List.mem_singleton.mp signed]
        decide
    · exact only.numeral c later

theorem IsNumber.numeral {text : List Char} (spelled : IsNumber text) :
    ∀ c ∈ text, isNumeral c = true := by
  obtain ⟨sign, whole, fraction, exponent, rfl, signs, wholes, fractions, exponents⟩ := spelled
  intro c member
  rw [List.mem_append, List.mem_append, List.mem_append] at member
  rcases member with ((signed | first) | second) | third
  · rcases signs with rfl | rfl
    · cases signed
    · rw [List.mem_singleton.mp signed]
      decide
  · exact wholes.1.numeral c first
  · exact fractions.numeral c second
  · exact exponents.numeral c third

theorem IsNumber.head {text : List Char} (spelled : IsNumber text) :
    ∃ c more, text = c :: more ∧ (c = '-' ∨ c.isDigit = true) := by
  obtain ⟨sign, whole, fraction, exponent, rfl, signs, wholes, _, _⟩ := spelled
  rcases signs with rfl | rfl
  · cases whole with
    | nil => exact absurd rfl wholes.1.1
    | cons c more =>
      exact ⟨c, more ++ fraction ++ exponent, rfl, .inr (wholes.1.2 c List.mem_cons_self)⟩
  · exact ⟨'-', whole ++ fraction ++ exponent, rfl, .inl rfl⟩

theorem number_unique {digits digits' rest rest' : List Char}
    (same : digits ++ rest = digits' ++ rest') (spelled : IsNumber digits)
    (ends : EndsNumber rest) (spelled' : IsNumber digits') (ends' : EndsNumber rest') :
    digits = digits' ∧ rest = rest' := by
  obtain ⟨taken, dropped⟩ := Text.run_taken spelled.numeral ends
  obtain ⟨taken', dropped'⟩ := Text.run_taken spelled'.numeral ends'
  rw [same] at taken dropped
  exact ⟨taken.symm.trans taken', dropped.symm.trans dropped'⟩

theorem not_number {c : Char} {more digits rest : List Char} (same : c :: more = digits ++ rest)
    (spelled : IsNumber digits) (sign : c ≠ '-') (digit : c.isDigit = false) : False := by
  obtain ⟨first, others, rfl, begins⟩ := spelled.head
  rw [List.cons_append, List.cons.injEq] at same
  rw [← same.1] at begins
  rcases begins with minus | isDigit
  · exact sign minus
  · rw [digit] at isDigit
    cases isDigit

theorem Reads.of_number {v : Tree} {text digits rest rest' : List Char}
    (same : text = digits ++ rest) (spelled : IsNumber digits) (ends : EndsNumber rest)
    (other : Reads (.value v) text rest') : .number digits = v ∧ rest = rest' := by
  cases other with
  | number same' spelled' ends' =>
    obtain ⟨rfl, rfl⟩ := number_unique (same.symm.trans same') spelled ends spelled' ends'
    exact ⟨rfl, rfl⟩
  | wordNull => exact (not_number same spelled (by decide) (by decide)).elim
  | wordTrue => exact (not_number same spelled (by decide) (by decide)).elim
  | wordFalse => exact (not_number same spelled (by decide) (by decide)).elim
  | string => exact (not_number same spelled (by decide) (by decide)).elim
  | noItems => exact (not_number same spelled (by decide) (by decide)).elim
  | array => exact (not_number same spelled (by decide) (by decide)).elim
  | noMembers => exact (not_number same spelled (by decide) (by decide)).elim
  | object => exact (not_number same spelled (by decide) (by decide)).elim

theorem Reads.skip_value {v : Tree} {text rest : List Char} (value : Reads (.value v) text rest) :
    skip text = text := by
  cases value with
  | number same spelled =>
    obtain ⟨c, more, rfl, begins⟩ := spelled.head
    have solid : isSpace c = false := by
      rcases begins with rfl | digit
      · decide
      · cases blank : isSpace c with
        | false => rfl
        | true =>
          simp only [isSpace, Bool.or_eq_true, beq_iff_eq] at blank
          rcases blank with ((rfl | rfl) | rfl) | rfl <;> cases digit
    rw [same, skip, List.cons_append, List.dropWhile_cons, solid]
    rfl
  | _ => rfl

theorem skip_append {blanks : List Char} (only : ∀ c ∈ blanks, isSpace c = true)
    (text : List Char) : skip (blanks ++ text) = skip text :=
  List.dropWhile_append_of_pos only

theorem not_items {items : List Tree} {text more rest : List Char}
    (closed : skip text = ']' :: more) (inner : Reads (.items items) text rest) : False := by
  have noValue : ∀ v next, ¬Reads (.value v) (']' :: more) next := by
    intro v next value
    cases value with
    | number same spelled => exact not_number same spelled (by decide) (by decide)
  cases inner with
  | lastItem item => exact noValue _ _ (closed ▸ item)
  | nextItem item => exact noValue _ _ (closed ▸ item)

theorem not_members {members : List (String × Tree)} {text more rest : List Char}
    (closed : skip text = '}' :: more) (inner : Reads (.members members) text rest) : False := by
  have noMember : ∀ key v next, ¬Reads (.member key v) text next := by
    intro key v next member
    cases member with
    | member quote =>
      rw [closed] at quote
      cases quote
  cases inner with
  | lastMember member => exact noMember _ _ _ member
  | nextMember member => exact noMember _ _ _ member

def Part.Alike : Part → Part → Prop
  | .value _, .value _ => True
  | .member _ _, .member _ _ => True
  | .items _, .items _ => True
  | .members _, .members _ => True
  | _, _ => False

/-- A text begins with at most one part of each kind, and leaves at most one rest. -/
theorem Reads.unique {p q : Part} {text rest rest' : List Char} (one : Reads p text rest)
    (other : Reads q text rest') (alike : p.Alike q) : p = q ∧ rest = rest' := by
  -- At every place the next character leaves the other reading only one way to go on.
  induction one generalizing q rest' with
  | wordNull =>
    cases other with
    | wordNull => exact ⟨rfl, rfl⟩
    | number same spelled ends => cases (of_number same spelled ends (.wordNull _)).1
    | _ => exact alike.elim
  | wordTrue =>
    cases other with
    | wordTrue => exact ⟨rfl, rfl⟩
    | number same spelled ends => cases (of_number same spelled ends (.wordTrue _)).1
    | _ => exact alike.elim
  | wordFalse =>
    cases other with
    | wordFalse => exact ⟨rfl, rfl⟩
    | number same spelled ends => cases (of_number same spelled ends (.wordFalse _)).1
    | _ => exact alike.elim
  | number same spelled ends =>
    cases q with
    | value w =>
      obtain ⟨values, rests⟩ := of_number same spelled ends other
      exact ⟨congrArg Part.value values, rests⟩
    | _ => exact alike.elim
  | string chars =>
    cases other with
    | string chars' =>
      obtain ⟨rfl, rfl⟩ := chars.unique chars'
      exact ⟨rfl, rfl⟩
    | number same spelled ends => cases (of_number same spelled ends (.string chars)).1
    | _ => exact alike.elim
  | noItems closed =>
    cases other with
    | noItems closed' =>
      rw [closed] at closed'
      cases closed'
      exact ⟨rfl, rfl⟩
    | array inner => exact (not_items closed inner).elim
    | number same spelled ends => cases (of_number same spelled ends (.noItems closed)).1
    | _ => exact alike.elim
  | array inner ih =>
    cases other with
    | noItems closed => exact (not_items closed inner).elim
    | array inner' =>
      obtain ⟨items, rests⟩ := ih inner' trivial
      cases items
      exact ⟨rfl, rests⟩
    | number same spelled ends => cases (of_number same spelled ends (.array inner)).1
    | _ => exact alike.elim
  | noMembers closed =>
    cases other with
    | noMembers closed' =>
      rw [closed] at closed'
      cases closed'
      exact ⟨rfl, rfl⟩
    | object inner => exact (not_members closed inner).elim
    | number same spelled ends => cases (of_number same spelled ends (.noMembers closed)).1
    | _ => exact alike.elim
  | object inner ih =>
    cases other with
    | noMembers closed => exact (not_members closed inner).elim
    | object inner' =>
      obtain ⟨members, rests⟩ := ih inner' trivial
      cases members
      exact ⟨rfl, rests⟩
    | number same spelled ends => cases (of_number same spelled ends (.object inner)).1
    | _ => exact alike.elim
  | member quote chars colon value ih =>
    cases other with
    | member quote' chars' colon' value' =>
      rw [quote] at quote'
      cases quote'
      obtain ⟨rfl, rfl⟩ := chars.unique chars'
      rw [colon] at colon'
      cases colon'
      obtain ⟨values, rfl⟩ := ih value' trivial
      cases values
      exact ⟨rfl, rfl⟩
    | _ => exact alike.elim
  | lastItem item closed ih =>
    cases other with
    | lastItem item' closed' =>
      obtain ⟨values, rfl⟩ := ih item' trivial
      rw [closed] at closed'
      cases values
      cases closed'
      exact ⟨rfl, rfl⟩
    | nextItem item' comma =>
      obtain ⟨_, rfl⟩ := ih item' trivial
      rw [closed] at comma
      cases comma
    | _ => exact alike.elim
  | nextItem item comma others itemIh othersIh =>
    cases other with
    | lastItem item' closed =>
      obtain ⟨_, rfl⟩ := itemIh item' trivial
      rw [comma] at closed
      cases closed
    | nextItem item' comma' others' =>
      obtain ⟨values, rfl⟩ := itemIh item' trivial
      rw [comma] at comma'
      cases values
      cases comma'
      obtain ⟨items, rfl⟩ := othersIh others' trivial
      cases items
      exact ⟨rfl, rfl⟩
    | _ => exact alike.elim
  | lastMember member closed ih =>
    cases other with
    | lastMember member' closed' =>
      obtain ⟨members, rfl⟩ := ih member' trivial
      rw [closed] at closed'
      cases members
      cases closed'
      exact ⟨rfl, rfl⟩
    | nextMember member' comma =>
      obtain ⟨_, rfl⟩ := ih member' trivial
      rw [closed] at comma
      cases comma
    | _ => exact alike.elim
  | nextMember member comma others memberIh othersIh =>
    cases other with
    | lastMember member' closed =>
      obtain ⟨_, rfl⟩ := memberIh member' trivial
      rw [comma] at closed
      cases closed
    | nextMember member' comma' others' =>
      obtain ⟨members, rfl⟩ := memberIh member' trivial
      rw [comma] at comma'
      cases members
      cases comma'
      obtain ⟨more, rfl⟩ := othersIh others' trivial
      cases more
      exact ⟨rfl, rfl⟩
    | _ => exact alike.elim

theorem Document.unique {v w : Tree} {text : List Char} (one : Document v text)
    (other : Document w text) : v = w := by
  obtain ⟨rest, reads, _⟩ := one
  obtain ⟨rest', reads', _⟩ := other
  have same := (reads.unique reads' trivial).1
  cases same
  rfl

end StructuredLog.Json
